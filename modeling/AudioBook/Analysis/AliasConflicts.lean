import AudioBook.Analysis.Characters
import Mathlib.Data.List.MinMax

/-!
# The Conflict Check of Aliases and the Exclusion Constraint

`createCharacterAlias` looks for a conflict before it writes: an alias of another character in the
same scope whose range, with both of its bounds, meets that of the new one. The database excludes
two aliases in one scope whose ranges, without their upper bounds, overlap, of whichever
character. `updateCharacterAlias` does not look.

- `AliasWrite`: the requests that write the columns of the constraint.
- `AliasWrite.Agrees`: when the service and the database decide alike about a request.
- `accepted_iff_iff_agrees`: they do exactly then.
-/

namespace AudioBook

open Relational

/-! ## Ranges -/

namespace AliasRow

/-- Two ranges that meet without overlapping: one ends where the other begins, or one begins where
it ends, within the other. -/
def Touches (a b : AliasRow) : Prop :=
  (a.validToSpine = b.validFromSpine ∧ a.validToSpine.isSome) ∨
  (b.validToSpine = a.validFromSpine ∧ b.validToSpine.isSome) ∨
  (a.validFromSpine = a.validToSpine ∧ a.validFromSpine.isSome ∧
    notAfter b.validFromSpine a.validFromSpine ∧ notAfter a.validToSpine b.validToSpine) ∨
  (b.validFromSpine = b.validToSpine ∧ b.validFromSpine.isSome ∧
    notAfter a.validFromSpine b.validFromSpine ∧ notAfter b.validToSpine a.validToSpine)

/-- The range of `a` has both of the bounds of `b` within its own. -/
def Surrounds (a b : AliasRow) : Prop :=
  notAfter a.validFromSpine b.validToSpine ∧ notAfter b.validFromSpine a.validToSpine

theorem rangesOverlap_iff {a b : AliasRow} (ha : a.rangeOk = true) (hb : b.rangeOk = true) :
    rangesOverlap a.validFromSpine a.validToSpine b.validFromSpine b.validToSpine = true ↔
      b.overlaps a = true ∨ b.Touches a := by
  unfold rangesOverlap overlaps Touches
  unfold rangeOk at ha hb
  obtain ⟨_, _, _, _, _, _, _, _, aFrom, aTo⟩ := a
  obtain ⟨_, _, _, _, _, _, _, _, bFrom, bTo⟩ := b
  rcases aFrom with _ | aFrom <;> rcases aTo with _ | aTo <;> rcases bFrom with _ | bFrom <;>
    rcases bTo with _ | bTo <;>
    simp only [notAfter, below, Bool.and_eq_true, decide_eq_true_eq, Option.some.injEq,
      Option.isSome_some, Option.isSome_none, reduceCtorEq, and_true, true_and, and_false,
      false_and, or_false, false_or, true_iff, Bool.false_eq_true] at ha hb ⊢ <;>
    omega

theorem overlaps_comm (a b : AliasRow) : a.overlaps b = b.overlaps a := by
  unfold overlaps
  ac_rfl

theorem SameKey.symm {a b : AliasRow} (h : a.SameKey b) : b.SameKey a := by
  obtain ⟨hbook, hform, hscope, hsome⟩ := h
  exact ⟨hbook.symm, hform.symm, hscope.symm, hscope ▸ hsome⟩

theorem excludes_comm (a b : AliasRow) : a.excludes b = b.excludes a := by
  unfold excludes
  rw [overlaps_comm, decide_eq_decide.mpr ⟨SameKey.symm, SameKey.symm⟩]

theorem scopeKey_eq_iff {a b : AliasRow} (ha : a.scopeOk = true) (hb : b.scopeOk = true) :
    (a.scopeKey = b.scopeKey ∧ a.scopeKey.isSome) ↔
      a.scopeKind = b.scopeKind ∧ a.scopeChapterId = b.scopeChapterId ∧
        a.scopeSpeakerCharacterId = b.scopeSpeakerCharacterId := by
  unfold scopeOk at ha hb
  unfold scopeKey
  rcases a with ⟨_, _, _, _, _, kind, chapterId, speakerId, _, _⟩
  rcases b with ⟨_, _, _, _, _, kind', chapterId', speakerId', _, _⟩
  cases kind <;> cases kind' <;> cases chapterId <;> cases speakerId <;> cases chapterId' <;>
    cases speakerId' <;> simp_all

end AliasRow

/-! ## What the Database Accepts -/

theorem newAliasId_notMem (aliases : List AliasRow) :
    newAliasId aliases ∉ aliases.map AliasRow.id := by
  intro hmem
  have hle := List.le_max_of_le' 0 hmem le_rfl
  exact absurd hle (Nat.not_succ_le_self _)

variable {aliases : List AliasRow} {wanted : AliasRow}

theorem aliasesOk_concat_iff (h : AliasesOk aliases) (hid : wanted.id ∉ aliases.map AliasRow.id) :
    AliasesOk (aliases ++ [wanted]) ↔ wanted.scopeOk = true ∧ wanted.rangeOk = true ∧
      ∀ a ∈ aliases, a.excludes wanted = false := by
  rw [aliasesOk_iff]
  have hids : ((aliases ++ [wanted]).map AliasRow.id).Nodup := by
    rw [List.map_append, List.map_singleton, List.nodup_append]
    refine ⟨h.ids, List.nodup_singleton _, ?_⟩
    rintro id hmem id' hid' rfl
    rw [List.mem_singleton.mp hid'] at hmem
    exact hid hmem
  rw [and_iff_right hids, List.forall_mem_append, List.forall_mem_append, List.pairwise_append,
    List.forall_mem_singleton, List.forall_mem_singleton, and_iff_right h.scopes,
    and_iff_right h.ranges, and_iff_right h.disjoint, and_iff_right (List.pairwise_singleton _ _)]
  simp only [List.mem_singleton, forall_eq]

theorem aliasesOk_updateWhere_iff {aliasId : Id} {f : AliasRow → AliasRow} {a : AliasRow}
    (h : AliasesOk aliases) (ha : a ∈ aliases) (haid : a.id = aliasId) (hid : ∀ a, (f a).id = a.id)
    (hscope : ∀ a, (f a).scopeOk = a.scopeOk) :
    AliasesOk (updateWhere (fun a => decide (a.id = aliasId)) f aliases) ↔
      (f a).rangeOk = true ∧ ∀ b ∈ aliases, b.id ≠ aliasId → b.excludes (f a) = false := by
  have hunique : ∀ b ∈ aliases, b.id = aliasId → b = a := fun b hb hbid =>
    List.inj_on_of_nodup_map h.ids hb ha (hbid.trans haid.symm)
  rw [aliasesOk_iff, pairwise_updateWhere_iff (fun r r' hr => by rwa [AliasRow.excludes_comm]) h.ids
    h.disjoint]
  have hscopes := forall_mem_updateWhere (p := fun a => decide (a.id = aliasId)) (f := f) h.scopes
    fun r hr _ => (hscope r).trans (h.scopes r hr)
  rw [and_iff_right (nodup_map_updateWhere h.ids hid), and_iff_right hscopes]
  refine and_congr ⟨fun hranges => ?_, fun hrange => ?_⟩ ⟨fun hdisjoint b hb hbid => ?_,
    fun hdisjoint r hr hrid b hb hbid => ?_⟩
  · exact hranges _ (mem_updateWhere.mpr (.inl ⟨a, ha, decide_eq_true haid, rfl⟩))
  · refine forall_mem_updateWhere h.ranges fun r hr hrid => ?_
    rw [hunique r hr (of_decide_eq_true hrid)]
    exact hrange
  · rw [AliasRow.excludes_comm]
    exact hdisjoint a ha haid b hb hbid
  · rw [hunique r hr hrid, AliasRow.excludes_comm]
    exact hdisjoint b hb hbid

/-! ## Requests -/

/-- A request that writes the spelling, the scope or the range of an alias. -/
inductive AliasWrite
  | create (characterId : Id) (body : CreateCharacterAliasBody)
  | update (characterId aliasId : Id) (body : UpdateCharacterAliasBody)

def isRefused : Except CharacterError CharacterStore → Bool
  | .error (.conflict ..) | .error (.notFound _) => true
  | .error .database | .ok _ => false

namespace AliasWrite

variable (toLowerCase : Text → Text) (bookId : Id)

def run : AliasWrite → CharacterStore → Except CharacterError CharacterStore
  | .create characterId body, s => s.createCharacterAlias toLowerCase bookId characterId body
  | .update characterId aliasId body, s =>
      s.updateCharacterAlias toLowerCase bookId characterId aliasId body

/-- The character or the alias that the request names is there. -/
def Found (s : CharacterStore) : AliasWrite → Prop
  | .create characterId _ => (requireCharacter bookId characterId s).isOk = true
  | .update characterId aliasId _ => (s.requireAlias bookId characterId aliasId).isOk = true

/-- The rows of `character_alias` that the request wants. -/
def rows (s : CharacterStore) : AliasWrite → List AliasRow
  | .create characterId body =>
      s.aliases ++ [createdAlias toLowerCase (newAliasId s.aliases) bookId characterId body]
  | .update _ aliasId body =>
      updateWhere (fun a => decide (a.id = aliasId))
        (CharacterStore.updatedAlias toLowerCase body) s.aliases

/-- An alias in the scope of the wanted one, of another character and as given. -/
def Other (aliases : List AliasRow) (wanted : AliasRow) (P : AliasRow → Prop) : Prop :=
  ∃ a ∈ aliases, a.SameKey wanted ∧ a.characterId ≠ wanted.characterId ∧ P a

/-- An alias in the scope of the wanted one, of the same character and as given. -/
def Own (aliases : List AliasRow) (wanted : AliasRow) (P : AliasRow → Prop) : Prop :=
  ∃ a ∈ aliases, a.SameKey wanted ∧ a.characterId = wanted.characterId ∧ P a

/-- When the service and the database decide alike about a request.

A new alias names what its scope is of. Either an alias of another character overlaps it, or one of
its own character does exactly when one of another touches it; if it ends before it begins, an
alias of another character surrounds it. A changed alias does not end before it begins, and
overlaps with no other in its scope. -/
def Agrees (s : CharacterStore) : AliasWrite → Prop
  | .create characterId body =>
      let wanted := createdAlias toLowerCase (newAliasId s.aliases) bookId characterId body
      wanted.scopeOk ∧
        if wanted.rangeOk then
          Other s.aliases wanted (fun a => a.overlaps wanted) ∨
            (Own s.aliases wanted (fun a => a.overlaps wanted) ↔
              Other s.aliases wanted (fun a => a.Touches wanted))
        else Other s.aliases wanted (fun a => a.Surrounds wanted)
  | .update _ aliasId body =>
      ∀ a ∈ s.aliases, a.id = aliasId →
        let changed := CharacterStore.updatedAlias toLowerCase body a
        changed.rangeOk ∧ ∀ b ∈ s.aliases, b.id ≠ aliasId → b.SameKey changed →
          b.overlaps changed = false

end AliasWrite

/-! ## What the Service Accepts -/

theorem isRefused_writeAliases (s : CharacterStore) (rows : List AliasRow) :
    isRefused (s.writeAliases rows) = false := by
  unfold CharacterStore.writeAliases
  split
  · rfl
  · rfl

theorem isRefused_createCharacterAlias {toLowerCase : Text → Text} {bookId characterId : Id}
    {body : CreateCharacterAliasBody} {s : CharacterStore}
    (hfound : (requireCharacter bookId characterId s).isOk = true) :
    isRefused (s.createCharacterAlias toLowerCase bookId characterId body) =
      (findAliasConflict (createdAlias toLowerCase (newAliasId s.aliases) bookId characterId body)
        s.aliases).isSome := by
  obtain ⟨character, hcharacter⟩ : ∃ character, requireCharacter bookId characterId s =
      .ok character := by
    cases h : requireCharacter bookId characterId s with
    | ok character => exact ⟨character, rfl⟩
    | error e =>
        rw [h] at hfound
        cases hfound
  unfold CharacterStore.createCharacterAlias
  rw [hcharacter]
  show isRefused (if _ then _ else _) = _
  split
  · next h =>
      rw [h]
      rfl
  · next h =>
      rw [Bool.not_eq_true] at h
      rw [h]
      exact isRefused_writeAliases _ _

theorem isRefused_updateCharacterAlias {toLowerCase : Text → Text} {bookId characterId aliasId : Id}
    {body : UpdateCharacterAliasBody} {s : CharacterStore}
    (hfound : (s.requireAlias bookId characterId aliasId).isOk = true) :
    isRefused (s.updateCharacterAlias toLowerCase bookId characterId aliasId body) = false := by
  unfold CharacterStore.updateCharacterAlias
  cases h : s.requireAlias bookId characterId aliasId with
  | ok a => exact isRefused_writeAliases _ _
  | error e =>
      rw [h] at hfound
      cases hfound

theorem isSome_findAliasConflict_iff :
    (findAliasConflict wanted aliases).isSome = true ↔ ∃ a ∈ aliases,
      a.bookId = wanted.bookId ∧ a.surfaceFormNormalized = wanted.surfaceFormNormalized ∧
      (a.scopeKind = wanted.scopeKind ∧ a.scopeChapterId = wanted.scopeChapterId ∧
        a.scopeSpeakerCharacterId = wanted.scopeSpeakerCharacterId) ∧
      a.characterId ≠ wanted.characterId ∧ rangesOverlap wanted.validFromSpine
        wanted.validToSpine a.validFromSpine a.validToSpine = true := by
  unfold findAliasConflict
  rw [List.find?_isSome]
  simp only [List.mem_filter, decide_eq_true_eq, and_assoc]

theorem isSome_findAliasConflict_iff_other (h : AliasesOk aliases) (hscope : wanted.scopeOk = true) :
    (findAliasConflict wanted aliases).isSome = true ↔
      AliasWrite.Other aliases wanted fun a => rangesOverlap wanted.validFromSpine
        wanted.validToSpine a.validFromSpine a.validToSpine = true := by
  rw [isSome_findAliasConflict_iff]
  refine exists_congr fun a => and_congr_right fun ha => ?_
  rw [← AliasRow.scopeKey_eq_iff (h.scopes a ha) hscope]
  unfold AliasRow.SameKey
  tauto

theorem not_isSome_findAliasConflict (h : AliasesOk aliases) (hscope : wanted.scopeOk = false) :
    (findAliasConflict wanted aliases).isSome = false := by
  rw [← Bool.not_eq_true, isSome_findAliasConflict_iff]
  rintro ⟨a, ha, -, -, ⟨hkind, hchapter, hspeaker⟩, -⟩
  have hstored := h.scopes a ha
  unfold AliasRow.scopeOk at hstored hscope
  rw [hkind, hchapter, hspeaker, hscope] at hstored
  cases hstored

namespace AliasWrite

variable {toLowerCase : Text → Text} {bookId : Id}

theorem create_agrees_iff_of_wellFormed {wanted : AliasRow} {aliases : List AliasRow}
    (h : AliasesOk aliases) (hid : wanted.id ∉ aliases.map AliasRow.id)
    (hscope : wanted.scopeOk = true) (hrange : wanted.rangeOk = true) :
    ((findAliasConflict wanted aliases).isSome = false ↔ AliasesOk (aliases ++ [wanted])) ↔
      Other aliases wanted (fun a => a.overlaps wanted) ∨
        (Own aliases wanted (fun a => a.overlaps wanted) ↔
          Other aliases wanted (fun a => a.Touches wanted)) := by
  have hconflict : (findAliasConflict wanted aliases).isSome = true ↔
      Other aliases wanted (fun a => a.overlaps wanted) ∨
        Other aliases wanted (fun a => a.Touches wanted) := by
    rw [isSome_findAliasConflict_iff_other h hscope]
    constructor
    · rintro ⟨a, ha, hkey, hcharacter, hranges⟩
      rcases (AliasRow.rangesOverlap_iff hrange (h.ranges a ha)).mp hranges with hlap | htouch
      · exact .inl ⟨a, ha, hkey, hcharacter, hlap⟩
      · exact .inr ⟨a, ha, hkey, hcharacter, htouch⟩
    · rintro (⟨a, ha, hkey, hcharacter, hlap⟩ | ⟨a, ha, hkey, hcharacter, htouch⟩)
      · exact ⟨a, ha, hkey, hcharacter,
          (AliasRow.rangesOverlap_iff hrange (h.ranges a ha)).mpr (.inl hlap)⟩
      · exact ⟨a, ha, hkey, hcharacter,
          (AliasRow.rangesOverlap_iff hrange (h.ranges a ha)).mpr (.inr htouch)⟩
  have hexcluded : AliasesOk (aliases ++ [wanted]) ↔
      ¬ (Other aliases wanted (fun a => a.overlaps wanted) ∨
        Own aliases wanted (fun a => a.overlaps wanted)) := by
    rw [aliasesOk_concat_iff h hid, and_iff_right hscope, and_iff_right hrange]
    constructor
    · rintro hfree (⟨a, ha, hkey, -, hlap⟩ | ⟨a, ha, hkey, -, hlap⟩)
      all_goals
        have hnot := hfree a ha
        unfold AliasRow.excludes at hnot
        rw [decide_eq_true hkey, hlap] at hnot
        cases hnot
    · intro hnone a ha
      rw [← Bool.not_eq_true]
      intro hexcludes
      unfold AliasRow.excludes at hexcludes
      rw [Bool.and_eq_true, decide_eq_true_eq] at hexcludes
      by_cases hcharacter : a.characterId = wanted.characterId
      · exact hnone (.inr ⟨a, ha, hexcludes.1, hcharacter, hexcludes.2⟩)
      · exact hnone (.inl ⟨a, ha, hexcludes.1, hcharacter, hexcludes.2⟩)
  rw [hexcluded, ← Bool.not_eq_true, hconflict]
  tauto

theorem create_accepted_iff_iff_agrees {characterId : Id} {body : CreateCharacterAliasBody}
    {s : CharacterStore} (hfound : (requireCharacter bookId characterId s).isOk = true) :
    (isRefused (s.createCharacterAlias toLowerCase bookId characterId body) = false ↔
        AliasesOk ((AliasWrite.create characterId body).rows toLowerCase bookId s)) ↔
      (AliasWrite.create characterId body).Agrees toLowerCase bookId s := by
  have h := s.aliasesOk
  have hid : (createdAlias toLowerCase (newAliasId s.aliases) bookId characterId body).id ∉
      s.aliases.map AliasRow.id := newAliasId_notMem s.aliases
  rw [isRefused_createCharacterAlias hfound]
  unfold rows Agrees
  dsimp only
  generalize createdAlias toLowerCase (newAliasId s.aliases) bookId characterId body = wanted
    at hid ⊢
  by_cases hscope : wanted.scopeOk = true
  · rw [and_iff_right hscope]
    by_cases hrange : wanted.rangeOk = true
    · rw [if_pos hrange]
      exact create_agrees_iff_of_wellFormed h hid hscope hrange
    · -- the database takes no alias that ends before it begins
      have hrejected : ¬ AliasesOk (s.aliases ++ [wanted]) := fun hok =>
        hrange ((aliasesOk_concat_iff h hid).mp hok).2.1
      rw [if_neg hrange, iff_false_right hrejected, Bool.not_eq_false,
        isSome_findAliasConflict_iff_other h hscope]
      refine exists_congr fun a => and_congr_right fun _ => and_congr_right fun _ =>
        and_congr_right fun _ => ?_
      unfold rangesOverlap AliasRow.Surrounds
      dsimp only
      rw [Bool.and_eq_true, and_comm]
  · -- the service sees no conflict, and the database takes no ill-formed scope
    have hrejected : ¬ AliasesOk (s.aliases ++ [wanted]) := fun hok =>
      hscope ((aliasesOk_concat_iff h hid).mp hok).1
    rw [Bool.not_eq_true] at hscope
    rw [not_isSome_findAliasConflict h hscope, hscope, iff_false_right hrejected]
    simp

theorem update_accepted_iff_iff_agrees {characterId aliasId : Id}
    {body : UpdateCharacterAliasBody} {s : CharacterStore}
    (hfound : (s.requireAlias bookId characterId aliasId).isOk = true) :
    (isRefused (s.updateCharacterAlias toLowerCase bookId characterId aliasId body) = false ↔
        AliasesOk ((AliasWrite.update characterId aliasId body).rows toLowerCase bookId s)) ↔
      (AliasWrite.update characterId aliasId body).Agrees toLowerCase bookId s := by
  rw [isRefused_updateCharacterAlias hfound]
  obtain ⟨a, ha, haid⟩ : ∃ a ∈ s.aliases, a.id = aliasId := by
    unfold CharacterStore.requireAlias at hfound
    split at hfound
    · next a hfind =>
        have hmatch := List.find?_some hfind
        rw [decide_eq_true_eq] at hmatch
        exact ⟨a, List.mem_of_find?_eq_some hfind, hmatch.1⟩
    · cases hfound
  have hunique : ∀ b ∈ s.aliases, b.id = aliasId → b = a := fun b hb hbid =>
    List.inj_on_of_nodup_map s.aliasesOk.ids hb ha (hbid.trans haid.symm)
  unfold rows Agrees
  rw [aliasesOk_updateWhere_iff (f := CharacterStore.updatedAlias toLowerCase body) s.aliasesOk ha
    haid (fun _ => rfl) (fun _ => rfl)]
  simp only [true_iff]
  have hexcludes : ∀ b : AliasRow, b.excludes (CharacterStore.updatedAlias toLowerCase body a) = false ↔
      (b.SameKey (CharacterStore.updatedAlias toLowerCase body a) →
        b.overlaps (CharacterStore.updatedAlias toLowerCase body a) = false) := by
    intro b
    unfold AliasRow.excludes
    rw [Bool.and_eq_false_iff, decide_eq_false_iff_not, imp_iff_not_or]
  simp only [hexcludes]
  constructor
  · intro hok b hb hbid
    rw [hunique b hb hbid]
    exact hok
  · intro hok
    exact hok a ha haid

/-- The service accepts a request that the database accepts, and no other, exactly when `Agrees`
says so. -/
theorem accepted_iff_iff_agrees (toLowerCase : Text → Text) (bookId : Id) (w : AliasWrite)
    (s : CharacterStore) (hfound : w.Found bookId s) :
    (isRefused (w.run toLowerCase bookId s) = false ↔ AliasesOk (w.rows toLowerCase bookId s)) ↔
      w.Agrees toLowerCase bookId s := by
  cases w with
  | create characterId body => exact create_accepted_iff_iff_agrees hfound
  | update characterId aliasId body => exact update_accepted_iff_iff_agrees hfound

end AliasWrite

/-! ## Chapters That Meet -/

/-- A character of the book has a name up to the fifth paragraph; another one exists. -/
def nameUpToFive : CharacterStore where
  characters := [{ id := 1, bookId := 7 }, { id := 2, bookId := 7 }]
  aliases := [{
    id := 1
    bookId := 7
    characterId := 1
    surfaceForm := ['A', 'n', 'n']
    surfaceFormNormalized := ['a', 'n', 'n']
    validFromSpine := some 1
    validToSpine := some 5 }]
  characterIds := by decide
  aliasesOk := by decide

/-- The same name for the other character, from the fifth paragraph on. -/
def nameFromFive : AliasWrite :=
  .create 2 { surfaceForm := ['A', 'n', 'n'], validFromSpine := some 5, validToSpine := some 9 }

/-- The same name for the other character, from the sixth paragraph on. -/
def nameFromSix : AliasWrite :=
  .create 2 { surfaceForm := ['A', 'n', 'n'], validFromSpine := some 6, validToSpine := some 9 }

theorem accepted_nameFromSix :
    nameFromSix.Found 7 nameUpToFive ∧
      (isRefused (nameFromSix.run (List.map Char.toLower) 7 nameUpToFive) = false ↔
        AliasesOk (nameFromSix.rows (List.map Char.toLower) 7 nameUpToFive)) := by
  have hfound : nameFromSix.Found 7 nameUpToFive := by
    show (requireCharacter 7 2 nameUpToFive).isOk = true
    decide
  refine ⟨hfound, (AliasWrite.accepted_iff_iff_agrees _ 7 nameFromSix nameUpToFive hfound).mpr ?_⟩
  refine ⟨by decide +kernel, ?_⟩
  rw [if_pos (by decide +kernel)]
  right
  refine iff_of_false ?_ ?_
  · rintro ⟨a, ha, -, hcharacter, -⟩
    rw [List.mem_singleton.mp ha] at hcharacter
    exact absurd hcharacter (by decide)
  · rintro ⟨a, ha, -, -, htouches⟩
    rw [List.mem_singleton.mp ha] at htouches
    revert htouches
    unfold AliasRow.Touches
    decide +kernel

/-- The service refuses a range that begins where another ends, and the database would not. -/
theorem not_forall_accepted_iff :
    ¬ ∀ (toLowerCase : Text → Text) (bookId : Id) (w : AliasWrite) (s : CharacterStore),
      w.Found bookId s → (isRefused (w.run toLowerCase bookId s) = false ↔
        AliasesOk (w.rows toLowerCase bookId s)) := by
  intro h
  have hfound : nameFromFive.Found 7 nameUpToFive := by
    show (requireCharacter 7 2 nameUpToFive).isOk = true
    decide
  have hrefused : isRefused (nameFromFive.run (List.map Char.toLower) 7 nameUpToFive) = true := by
    decide +kernel
  have hok : AliasesOk (nameFromFive.rows (List.map Char.toLower) 7 nameUpToFive) := by
    decide +kernel
  have haccepted := (h (List.map Char.toLower) 7 nameFromFive nameUpToFive hfound).mpr hok
  rw [hrefused] at haccepted
  cases haccepted

end AudioBook
