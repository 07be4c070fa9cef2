import AudioBook.Analysis.Characters
import AudioBook.Relational.References
import Mathlib.Data.List.Infix

/-!
# Merging Characters and Splitting Them Again

The merge requests of a book, one after the other. A merge points the losing character at the
winning one and hands over its aliases; a split takes the pointer away. Neither looks at what the
winning character points at, and a split moves no alias.

- `CharacterStore.IsForest`: following the pointers ends at a character that is not merged.
- `IsAccepted`: a request that is carried out.
- `merges_iff`: the characters stay a forest exactly when no merge closes a cycle, and a split
  gives the aliases back exactly when the losing character had none.
-/

namespace AudioBook

open Relational Pointers

/-! ## Forests of Characters -/

namespace CharacterStore

def mergedInto (s : CharacterStore) (characterId : Id) : Option Id :=
  (s.characters.find? fun c => decide (c.id = characterId)).bind
    CharacterRecord.mergedIntoCharacterId

/-- Following `merged_into_character_id` from any character ends at one whose status is not
`MERGED_INTO`. -/
def IsForest (s : CharacterStore) : Prop :=
  ∀ c ∈ s.characters, ∃ d ∈ s.characters, Leads s.mergedInto c.id d.id ∧
    d.mergedIntoCharacterId = none ∧ d.status ≠ .mergedInto

/-- No character has been merged. -/
def Fresh (s : CharacterStore) : Prop :=
  ∀ c ∈ s.characters, c.status ≠ .mergedInto ∧ c.mergedIntoCharacterId = none

/-- The characters that are merged are those with a pointer, and the pointers are at characters. -/
structure MergesOk (s : CharacterStore) : Prop where
  status : ∀ c ∈ s.characters, c.status = .mergedInto ↔ c.mergedIntoCharacterId.isSome
  target : ∀ c ∈ s.characters, ∀ characterId ∈ c.mergedIntoCharacterId,
    ∃ d ∈ s.characters, d.id = characterId

variable {s s' : CharacterStore} {c : CharacterRecord}

theorem mergedInto_of_mem (hc : c ∈ s.characters) :
    s.mergedInto c.id = c.mergedIntoCharacterId := by
  unfold mergedInto
  rw [(find?_eq_some_iff_of_nodup s.characterIds).mpr ⟨hc, rfl⟩]
  rfl

theorem mergedInto_eq_some {characterId target : Id}
    (h : s.mergedInto characterId = some target) :
    ∃ c ∈ s.characters, c.id = characterId ∧ c.mergedIntoCharacterId = some target := by
  obtain ⟨c, hfound, hc⟩ := Option.bind_eq_some_iff.mp h
  obtain ⟨hmem, hid⟩ := (find?_eq_some_iff_of_nodup s.characterIds).mp hfound
  exact ⟨c, hmem, hid, hc⟩

theorem MergesOk.exists_of_leads (h : s.MergesOk) (hc : c ∈ s.characters) {characterId : Id}
    (hleads : Leads s.mergedInto c.id characterId) : ∃ d ∈ s.characters, d.id = characterId := by
  induction hleads with
  | refl => exact ⟨c, hc, rfl⟩
  | tail _ hnext _ =>
      obtain ⟨c', hc', -, htarget⟩ := mergedInto_eq_some hnext
      exact h.target c' hc' _ htarget

theorem MergesOk.isForest_iff (h : s.MergesOk) : s.IsForest ↔ ∀ id, Ends s.mergedInto id := by
  constructor
  · intro hforest id
    cases hid : s.mergedInto id with
    | none => exact ends_of_none hid
    | some target =>
        obtain ⟨c, hc, rfl, -⟩ := mergedInto_eq_some hid
        obtain ⟨d, hd, hleads, hnone, -⟩ := hforest c hc
        exact ⟨d.id, hleads, (mergedInto_of_mem hd).trans hnone⟩
  · intro hends c hc
    obtain ⟨id, hleads, hnone⟩ := hends c.id
    obtain ⟨d, hd, rfl⟩ := h.exists_of_leads hc hleads
    rw [mergedInto_of_mem hd] at hnone
    refine ⟨d, hd, hleads, hnone, fun hstatus => ?_⟩
    have hpointer := (h.status d hd).mp hstatus
    rw [hnone] at hpointer
    cases hpointer

theorem Fresh.mergesOk (h : s.Fresh) : s.MergesOk where
  status c hc := by
    rw [(h c hc).2]
    exact iff_of_false (h c hc).1 (by simp)
  target c hc characterId hid := by
    rw [(h c hc).2] at hid
    cases hid

theorem Fresh.isForest (h : s.Fresh) : s.IsForest := fun c hc =>
  ⟨c, hc, Leads.refl _, (h c hc).2, (h c hc).1⟩

end CharacterStore

/-! ## One Request -/

section request

variable {bookId : Id} {body : CreateCharacterMergeBody} {s s' : CharacterStore}

theorem requireCharacter_eq_ok {characterId : Id} {c : CharacterRecord}
    (h : requireCharacter bookId characterId s = .ok c) :
    c ∈ s.characters ∧ c.id = characterId := by
  unfold requireCharacter at h
  split at h
  · next c' hfind =>
      rw [← Except.ok.inj h]
      have hmatch := List.find?_some hfind
      rw [decide_eq_true_eq] at hmatch
      exact ⟨List.mem_of_find?_eq_some hfind, hmatch.1⟩
  · cases h

theorem createCharacterMerge_eq_ok (h : createCharacterMerge bookId body s = .ok s') :
    (∃ losing ∈ s.characters, losing.id = body.losingCharacterId) ∧
    (∃ winning ∈ s.characters, winning.id = body.winningCharacterId) ∧
    ((body.operation = .merge ∧
        s'.characters = setMergedInto body.losingCharacterId .mergedInto
          (some body.winningCharacterId) s.characters ∧
        s'.aliases = moveAliases body.losingCharacterId body.winningCharacterId s.aliases) ∨
      (body.operation = .split ∧
        s'.characters = setMergedInto body.losingCharacterId .provisional none s.characters ∧
        s'.aliases = s.aliases)) := by
  unfold createCharacterMerge at h
  cases hlosing : requireCharacter bookId body.losingCharacterId s with
  | error e =>
      rw [hlosing] at h
      cases h
  | ok losing =>
      cases hwinning : requireCharacter bookId body.winningCharacterId s with
      | error e =>
          rw [hlosing, hwinning] at h
          cases h
      | ok winning =>
          obtain ⟨hlosingmem, hlosingid⟩ := requireCharacter_eq_ok hlosing
          obtain ⟨hwinningmem, hwinningid⟩ := requireCharacter_eq_ok hwinning
          refine ⟨⟨losing, hlosingmem, hlosingid⟩, ⟨winning, hwinningmem, hwinningid⟩, ?_⟩
          rw [hlosing, hwinning] at h
          change (if _ then _ else _) = _ at h
          split at h
          · cases h
          · change (if _ then _ else _) = _ at h
            split at h
            · cases h
            · cases hoperation : body.operation with
              | merge =>
                  rw [hoperation] at h
                  obtain rfl := Except.ok.inj h
                  exact .inl ⟨rfl, by rw [← hlosingid, ← hwinningid], by rw [← hlosingid, ← hwinningid]⟩
              | split =>
                  rw [hoperation] at h
                  obtain rfl := Except.ok.inj h
                  exact .inr ⟨rfl, by rw [← hlosingid], rfl⟩

theorem mergedInto_setMergedInto {characterId : Id} {status : CharacterStatus} {target : Option Id}
    (hcharacters : s'.characters = setMergedInto characterId status target s.characters)
    (hmem : ∃ c ∈ s.characters, c.id = characterId) :
    s'.mergedInto = Function.update s.mergedInto characterId target := by
  obtain ⟨c, hc, rfl⟩ := hmem
  funext id
  unfold CharacterStore.mergedInto
  rw [hcharacters]
  unfold setMergedInto
  have hfind := find?_updateWhere (p := fun d : CharacterRecord => decide (d.id = c.id))
    (f := fun d : CharacterRecord => { d with status := status, mergedIntoCharacterId := target })
    (g := CharacterRecord.id) (fun _ => rfl) s.characters id
  rw [hfind]
  by_cases hid : id = c.id
  · subst hid
    rw [Function.update_self, (find?_eq_some_iff_of_nodup s.characterIds).mpr ⟨hc, rfl⟩]
    simp
  · rw [Function.update_of_ne hid]
    cases hfound : s.characters.find? fun c => decide (c.id = id) with
    | none => rfl
    | some d =>
        have hd := ((find?_eq_some_iff_of_nodup s.characterIds).mp hfound).2
        rw [Option.map_some, if_neg]
        rw [hd, decide_eq_true_eq]
        exact hid

theorem mergesOk_setMergedInto (h : s.MergesOk) {characterId : Id} {status : CharacterStatus}
    {target : Option Id}
    (hcharacters : s'.characters = setMergedInto characterId status target s.characters)
    (hstatus : status = .mergedInto ↔ target.isSome)
    (htarget : ∀ id ∈ target, ∃ d ∈ s.characters, d.id = id) : s'.MergesOk := by
  have hids : ∀ id, (∃ d ∈ s.characters, d.id = id) → ∃ d ∈ s'.characters, d.id = id := by
    intro id hid
    have hmap : s'.characters.map CharacterRecord.id = s.characters.map CharacterRecord.id := by
      rw [hcharacters, map_id_setMergedInto]
    rw [← List.mem_map] at hid ⊢
    rwa [hmap]
  constructor
  · rw [hcharacters]
    exact forall_mem_updateWhere h.status fun _ _ _ => hstatus
  · have hkeep : ∀ c ∈ s'.characters, ∀ id ∈ c.mergedIntoCharacterId,
        ∃ d ∈ s.characters, d.id = id := by
      rw [hcharacters]
      exact forall_mem_updateWhere h.target fun _ _ _ => htarget
    exact fun c hc id hid => hids id (hkeep c hc id hid)

theorem mergesOk_of_createCharacterMerge (h : s.MergesOk)
    (hok : createCharacterMerge bookId body s = .ok s') : s'.MergesOk := by
  obtain ⟨-, hwinning, hmerge | hsplit⟩ := createCharacterMerge_eq_ok hok
  · refine mergesOk_setMergedInto h hmerge.2.1 (by simp) fun id hid => ?_
    rw [← Option.some.inj hid]
    exact hwinning
  · exact mergesOk_setMergedInto h hsplit.2.1 (by simp) (by simp)

end request

/-! ## Runs -/

/-- What a request leaves behind; one that is refused leaves everything as it is. -/
def mergeStep (bookId : Id) (s : CharacterStore) (body : CreateCharacterMergeBody) :
    CharacterStore :=
  match createCharacterMerge bookId body s with
  | .ok s' => s'
  | .error _ => s

def runMerges (bookId : Id) (requests : List CreateCharacterMergeBody) (s : CharacterStore) :
    CharacterStore :=
  requests.foldl (mergeStep bookId) s

/-- The request is carried out. -/
def IsAccepted (bookId : Id) (body : CreateCharacterMergeBody) (s : CharacterStore) : Prop :=
  (createCharacterMerge bookId body s).isOk = true

/-- The merge of one character into another, as a request. -/
def mergeRequest (losing winning : Id) : CreateCharacterMergeBody := ⟨.merge, losing, winning⟩

def splitRequest (losing winning : Id) : CreateCharacterMergeBody := ⟨.split, losing, winning⟩

/-- No merge is carried out whose winning character leads to the losing one. -/
def ClosesNoCycle (bookId : Id) (requests : List CreateCharacterMergeBody) (s : CharacterStore) :
    Prop :=
  ∀ before losing winning, before ++ [mergeRequest losing winning] <+: requests →
    IsAccepted bookId (mergeRequest losing winning) (runMerges bookId before s) →
    ¬ Leads (runMerges bookId before s).mergedInto winning losing

/-- The aliases that the losing character had at the first of two moments are its own at the
second one. -/
def Restored (losing : Id) (before after : CharacterStore) : Prop :=
  ∀ a ∈ before.aliases, a.characterId = losing →
    ∃ a' ∈ after.aliases, a'.id = a.id ∧ a'.characterId = losing

section run

variable {bookId : Id} {s s' : CharacterStore} {requests : List CreateCharacterMergeBody}

theorem runMerges_concat (bookId : Id) (before : List CreateCharacterMergeBody)
    (body : CreateCharacterMergeBody) (s : CharacterStore) :
    runMerges bookId (before ++ [body]) s = mergeStep bookId (runMerges bookId before s) body :=
  List.foldl_concat ..

theorem mergeStep_cases (bookId : Id) (body : CreateCharacterMergeBody) (s : CharacterStore) :
    createCharacterMerge bookId body s = .ok (mergeStep bookId s body) ∨
      ((createCharacterMerge bookId body s).isOk = false ∧ mergeStep bookId s body = s) := by
  unfold mergeStep
  cases h : createCharacterMerge bookId body s with
  | ok s' => exact .inl rfl
  | error e => exact .inr ⟨rfl, rfl⟩

theorem mergesOk_runMerges (h : s.MergesOk) (requests : List CreateCharacterMergeBody) :
    (runMerges bookId requests s).MergesOk := by
  induction requests using List.reverseRecOn with
  | nil => exact h
  | append_singleton before body ih =>
      rw [runMerges_concat]
      rcases mergeStep_cases bookId body (runMerges bookId before s) with hok | ⟨-, hsame⟩
      · exact mergesOk_of_createCharacterMerge ih hok
      · rw [hsame]
        exact ih

theorem isForest_mergeStep_iff (h : s.MergesOk) (hforest : s.IsForest)
    (body : CreateCharacterMergeBody) :
    (mergeStep bookId s body).IsForest ↔ (body.operation = .merge → IsAccepted bookId body s →
      ¬ Leads s.mergedInto body.winningCharacterId body.losingCharacterId) := by
  have hends := h.isForest_iff.mp hforest
  rcases mergeStep_cases bookId body s with hok | ⟨hrefused, hsame⟩
  · have haccepted : IsAccepted bookId body s := by
      unfold IsAccepted
      rw [hok]
      rfl
    rw [(mergesOk_of_createCharacterMerge h hok).isForest_iff]
    obtain ⟨hlosing, -, ⟨hoperation, hcharacters, -⟩ | ⟨hoperation, hcharacters, -⟩⟩ :=
      createCharacterMerge_eq_ok hok
    · rw [mergedInto_setMergedInto hcharacters hlosing, ends_update_some_iff hends]
      exact ⟨fun hnot _ _ => hnot, fun hnot => hnot hoperation haccepted⟩
    · rw [mergedInto_setMergedInto hcharacters hlosing]
      refine iff_of_true (ends_update_none hends) fun hmerge => ?_
      rw [hoperation] at hmerge
      cases hmerge
  · rw [hsame]
    refine iff_of_true hforest fun _ haccepted => ?_
    unfold IsAccepted at haccepted
    rw [hrefused] at haccepted
    cases haccepted

theorem isForest_runMerges_iff (hfresh : s.Fresh) :
    (∀ before, before <+: requests → (runMerges bookId before s).IsForest) ↔
      ClosesNoCycle bookId requests s := by
  constructor
  · intro hforest before losing winning hprefix haccepted
    have hbefore := hforest before ((List.prefix_append _ _).trans hprefix)
    have hafter := hforest _ hprefix
    rw [runMerges_concat, isForest_mergeStep_iff (mergesOk_runMerges hfresh.mergesOk before)
      hbefore] at hafter
    exact hafter rfl haccepted
  · intro hcycle before hprefix
    induction before using List.reverseRecOn with
    | nil => exact hfresh.isForest
    | append_singleton before body ih =>
        have hbefore := ih ((List.prefix_append _ _).trans hprefix)
        rw [runMerges_concat, isForest_mergeStep_iff (mergesOk_runMerges hfresh.mergesOk before)
          hbefore]
        obtain ⟨operation, losing, winning⟩ := body
        rintro rfl haccepted
        exact hcycle before losing winning hprefix haccepted

/-! ## Owners of Aliases -/

/-- The alias with an id is not one of the character. -/
def NotOwned (characterId aliasId : Id) (s : CharacterStore) : Prop :=
  ∀ a ∈ s.aliases, a.id = aliasId → a.characterId ≠ characterId

theorem notOwned_mergeStep {losing aliasId : Id} (h : NotOwned losing aliasId s)
    {body : CreateCharacterMergeBody}
    (hbody : body.operation = .merge → body.winningCharacterId ≠ losing) :
    NotOwned losing aliasId (mergeStep bookId s body) := by
  rcases mergeStep_cases bookId body s with hok | ⟨-, hsame⟩
  · obtain ⟨-, -, ⟨hoperation, -, haliases⟩ | ⟨-, -, haliases⟩⟩ := createCharacterMerge_eq_ok hok
    · unfold NotOwned
      rw [haliases]
      exact forall_mem_updateWhere h fun _ _ _ _ => hbody hoperation
    · unfold NotOwned
      rw [haliases]
      exact h
  · rw [hsame]
    exact h

theorem notOwned_runMerges {losing aliasId : Id} (h : NotOwned losing aliasId s)
    (hrequests : ∀ body ∈ requests, body.operation = .merge → body.winningCharacterId ≠ losing) :
    NotOwned losing aliasId (runMerges bookId requests s) := by
  induction requests using List.reverseRecOn with
  | nil => exact h
  | append_singleton before body ih =>
      rw [runMerges_concat]
      exact notOwned_mergeStep (ih fun b hb => hrequests b (by simp [hb])) (hrequests body (by simp))

theorem notOwned_merge {losing winning : Id} (hne : losing ≠ winning)
    (haccepted : IsAccepted bookId (mergeRequest losing winning) s) (aliasId : Id) :
    NotOwned losing aliasId (mergeStep bookId s (mergeRequest losing winning)) := by
  rcases mergeStep_cases bookId (mergeRequest losing winning) s with hok | ⟨hrefused, -⟩
  · obtain ⟨-, -, ⟨-, -, haliases⟩ | ⟨hoperation, -⟩⟩ := createCharacterMerge_eq_ok hok
    · intro a ha _
      rw [haliases] at ha
      rcases mem_updateWhere.mp ha with ⟨a₀, -, -, rfl⟩ | ⟨-, hother⟩
      · exact hne.symm
      · exact of_decide_eq_false hother
    · cases hoperation
  · unfold IsAccepted at haccepted
    rw [hrefused] at haccepted
    cases haccepted

theorem restored_split_iff {before between : List CreateCharacterMergeBody} {losing winning : Id}
    (hne : losing ≠ winning)
    (haccepted : IsAccepted bookId (mergeRequest losing winning) (runMerges bookId before s))
    (hbetween : ∀ body ∈ between, body.operation = .merge → body.winningCharacterId ≠ losing) :
    Restored losing (runMerges bookId before s)
        (runMerges bookId
          (before ++ mergeRequest losing winning :: between ++ [splitRequest losing winning]) s) ↔
      ∀ a ∈ (runMerges bookId before s).aliases, a.characterId ≠ losing := by
  constructor
  · intro hrestored a ha hlosing
    obtain ⟨a', ha', hid, hlosing'⟩ := hrestored a ha hlosing
    have hrun : runMerges bookId
        (before ++ mergeRequest losing winning :: between ++ [splitRequest losing winning]) s =
        runMerges bookId (between ++ [splitRequest losing winning])
          (mergeStep bookId (runMerges bookId before s) (mergeRequest losing winning)) := by
      unfold runMerges
      rw [List.append_assoc, List.foldl_append, List.cons_append, List.foldl_cons]
    rw [hrun] at ha'
    refine notOwned_runMerges (notOwned_merge hne haccepted a.id) (fun body hbody => ?_) a' ha' hid
      hlosing'
    rcases List.mem_append.mp hbody with hbody | hbody
    · exact hbetween body hbody
    · rw [List.mem_singleton.mp hbody]
      intro hoperation
      cases hoperation
  · intro hnone a ha hlosing
    exact absurd hlosing (hnone a ha)

/-- From characters that are not merged, the characters are a forest after every request exactly
when no merge closes a cycle, and the split of two characters gives the losing one the aliases back
that their merge took, if none was merged into it in between, exactly when it took none. -/
theorem merges_iff (bookId : Id) (s : CharacterStore) (hfresh : s.Fresh)
    (requests : List CreateCharacterMergeBody) :
    ((∀ before, before <+: requests → (runMerges bookId before s).IsForest) ↔
        ClosesNoCycle bookId requests s) ∧
      ∀ before between losing winning, losing ≠ winning →
        before ++ mergeRequest losing winning :: between ++ [splitRequest losing winning] <+:
          requests →
        IsAccepted bookId (mergeRequest losing winning) (runMerges bookId before s) →
        (∀ body ∈ between, body.operation = .merge → body.winningCharacterId ≠ losing) →
        (Restored losing (runMerges bookId before s)
            (runMerges bookId (before ++ mergeRequest losing winning :: between ++
              [splitRequest losing winning]) s) ↔
          ∀ a ∈ (runMerges bookId before s).aliases, a.characterId ≠ losing) :=
  ⟨isForest_runMerges_iff hfresh, fun _ _ _ _ hne _ haccepted hbetween =>
    restored_split_iff hne haccepted hbetween⟩

/-! ## Two Characters -/

theorem nodup_twoCharacters :
    ([{ id := 1, bookId := 7 }, { id := 2, bookId := 7 }].map CharacterRecord.id).Nodup := by decide

/-- Two characters of a book; the first one has an alias. -/
def twoCharacters : CharacterStore where
  characters := [{ id := 1, bookId := 7 }, { id := 2, bookId := 7 }]
  aliases := [{
    id := 1
    bookId := 7
    characterId := 1
    surfaceForm := ['A', 'n', 'n']
    surfaceFormNormalized := ['a', 'n', 'n'] }]
  characterIds := nodup_twoCharacters
  aliasesOk := by decide

theorem fresh_twoCharacters : twoCharacters.Fresh := by
  unfold CharacterStore.Fresh twoCharacters
  decide

theorem merges_twoCharacters :
    twoCharacters.Fresh ∧
      ((∀ before, before <+: [mergeRequest 1 2] → (runMerges 7 before twoCharacters).IsForest) ↔
        ClosesNoCycle 7 [mergeRequest 1 2] twoCharacters) :=
  ⟨fresh_twoCharacters, (merges_iff 7 twoCharacters fresh_twoCharacters [mergeRequest 1 2]).1⟩

/-- The merges of two characters into each other leave no forest, and a split gives no alias
back. -/
theorem not_forall_merges :
    (¬ ∀ (bookId : Id) (s : CharacterStore) (requests : List CreateCharacterMergeBody), s.Fresh →
      (runMerges bookId requests s).IsForest) ∧
    ¬ ∀ (bookId : Id) (s : CharacterStore) (losing winning : Id), s.Fresh →
      Restored losing s (runMerges bookId
        [mergeRequest losing winning, splitRequest losing winning] s) := by
  constructor
  · intro h
    obtain ⟨d, hd, hleads, hnone, -⟩ := h 7 twoCharacters [mergeRequest 1 2, mergeRequest 2 1]
      fresh_twoCharacters { id := 1, bookId := 7, status := .mergedInto, mergedIntoCharacterId := some 2 }
      (by decide +kernel)
    have hfirst : (runMerges 7 [mergeRequest 1 2, mergeRequest 2 1] twoCharacters).mergedInto 1 =
        some 2 := by decide +kernel
    have hsecond : (runMerges 7 [mergeRequest 1 2, mergeRequest 2 1] twoCharacters).mergedInto 2 =
        some 1 := by decide +kernel
    exact not_ends_of_cycle hfirst (Leads.head hsecond (Leads.refl 1))
      ⟨d.id, hleads, (CharacterStore.mergedInto_of_mem hd).trans hnone⟩
  · intro h
    obtain ⟨a', ha', -, howner⟩ := h 7 twoCharacters 1 2 fresh_twoCharacters _ List.mem_cons_self rfl
    have hall : ∀ a ∈ (runMerges 7 [mergeRequest 1 2, splitRequest 1 2] twoCharacters).aliases,
        a.characterId ≠ 1 := by decide +kernel
    exact hall a' ha' howner

end run

end AudioBook
