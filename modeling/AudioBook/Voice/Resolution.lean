import AudioBook.Schema.Rows
import AudioBook.Relational.Table
import Mathlib.Data.List.Dedup
import Mathlib.Data.List.Induction
import Mathlib.Data.List.Sort

/-!
# Resolving a Speaker's Voice, With and Without the Cache

`resolve_voice_binding` asks the database for the active assignment of one `(character, role)` at a
time. `preload_voice_bindings` asks once for every character of a chapter and
`resolve_voice_binding_from_cache` answers from the dictionary it built. The dictionary has one
entry for each character, which holds the `NARRATOR` voice for the narrator and the `CHARACTER`
voice for everyone else.

## Main results

* `findActiveAssignment_eq_some_iff`, `lookup_preloadVoiceBindings_eq_some_iff`: both ways of
  asking find exactly the voices that are cast.
* `resolve_fromCache_iff`: the two resolutions agree unless the speaker is a `CHARACTER` with the
  narrator's own id whose `CHARACTER` voice is not the narrator's `NARRATOR` voice.
-/

namespace Relational

variable {ρ κ β : Type*} [DecidableEq κ]

/-- A dictionary filled row by row: a row whose key is present is skipped, and so is a row without
a value. -/
def firstByKey (key : ρ → κ) (value : ρ → Option β) (rows : List ρ) : List (κ × β) :=
  rows.foldl (fun entries r =>
    if (entries.lookup (key r)).isSome then entries
    else match value r with
      | none => entries
      | some b => entries ++ [(key r, b)]) []

theorem lookup_firstByKey (key : ρ → κ) (value : ρ → Option β) (rows : List ρ) (k : κ) :
    (firstByKey key value rows).lookup k =
      rows.findSome? fun r => if key r = k then value r else none := by
  induction rows using List.reverseRecOn with
  | nil => rfl
  | append_singleton rows r ih =>
    rw [firstByKey, List.foldl_concat, ← firstByKey, List.findSome?_append, ← ih]
    generalize firstByKey key value rows = entries
    -- The row adds an entry only where its key has none yet, which is where its value counts.
    by_cases hkey : key r = k
    · subst hkey
      cases hfound : entries.lookup (key r) with
      | some b => simp [hfound]
      | none =>
        cases hvalue : value r <;> simp [hfound, hvalue, List.lookup_append]
    · have hk : (k == key r) = false := by simp [Ne.symm hkey]
      split
      · simp [hkey]
      · cases value r <;> simp [hkey, List.lookup_append, List.lookup_cons, hk]

theorem head?_eq_some_iff_mem {l : List ρ} (hsame : ∀ r ∈ l, ∀ r' ∈ l, r = r') (r : ρ) :
    l.head? = some r ↔ r ∈ l := by
  constructor
  · exact List.mem_of_head?
  · intro hr
    obtain ⟨r', hr'⟩ : ∃ r', l.head? = some r' := by
      cases l with
      | nil => simp at hr
      | cons r' l => exact ⟨r', rfl⟩
    rw [hr', hsame r' (List.mem_of_head? hr') r hr]

theorem findSome?_eq_some_iff_exists {f : ρ → Option β} {l : List ρ}
    (hsame : ∀ r ∈ l, ∀ r' ∈ l, ∀ b b', f r = some b → f r' = some b' → b = b') (b : β) :
    l.findSome? f = some b ↔ ∃ r ∈ l, f r = some b := by
  constructor
  · exact List.exists_of_findSome?_eq_some
  · rintro ⟨r, hr, hb⟩
    obtain ⟨b', hb'⟩ : ∃ b', l.findSome? f = some b' := by
      refine Option.isSome_iff_exists.mp (List.findSome?_isSome_iff.mpr ⟨r, hr, ?_⟩)
      simp [hb]
    obtain ⟨r', hr', hfound⟩ := List.exists_of_findSome?_eq_some hb'
    rw [hb', hsame r' hr' r hr b' b hfound hb]

end Relational

namespace AudioBook.VoiceResolution

open Relational

inductive VoiceAssignmentRole
  | narrator
  | character
  | alternate
  deriving DecidableEq, Repr

/-- `voice_assignment`, the columns a resolution reads. -/
structure VoiceAssignment where
  id : Id
  bookId : Id
  characterId : Id
  voiceProfileId : Id
  voiceProfileVersionId : Id
  role : VoiceAssignmentRole
  isActive : Bool
  assignedAt : ℕ
  supersededByAssignmentId : Option Id

variable {Params : Type}

/-- `voice_profile_version`, the columns a resolution reads. -/
structure VoiceProfileVersion (Params : Type) where
  id : Id
  approvalState : VoiceApprovalState
  ttsProviderId : String
  /-- A JSON object, or `none` where the column holds a JSON `null`. -/
  baseGenerationParams : Option Params
  baseGenerationParamsHash : Hash

/-- The key of `voice_assignment_active_key`. -/
def VoiceAssignment.activeKey (a : VoiceAssignment) : Option (Id × Id × VoiceAssignmentRole) :=
  if a.isActive then some (a.bookId, a.characterId, a.role) else none

/-- The two tables, with the unique index on active assignments and the versions' primary key. -/
structure Casting (Params : Type) where
  assignments : List VoiceAssignment
  versions : List (VoiceProfileVersion Params)
  assignment_active_key : UniqueWhere VoiceAssignment.activeKey assignments
  version_pkey : UniqueWhere (fun v : VoiceProfileVersion Params => some v.id) versions

@[ext]
structure VoiceBinding (Params : Type) where
  voiceProfileId : Id
  voiceProfileVersionId : Id
  ttsProviderId : String
  generationParams : Params
  generationParamsHash : Hash
  deriving DecidableEq

/-- A row of `voice_assignment va JOIN voice_profile_version vpv ON vpv.id =
va.voice_profile_version_id`. -/
abbrev CastRow (Params : Type) : Type := VoiceAssignment × VoiceProfileVersion Params

/-- `voice_assignment va JOIN voice_profile_version vpv ON …`. -/
def Casting.joined (c : Casting Params) : List (CastRow Params) :=
  c.assignments.flatMap fun a =>
    (c.versions.filter fun v => v.id = a.voiceProfileVersionId).map (a, ·)

/-- `ORDER BY va.assigned_at DESC`. -/
def newestFirst (rows : List (CastRow Params)) : List (CastRow Params) :=
  rows.insertionSort fun r r' => r'.1.assignedAt ≤ r.1.assignedAt

variable [EmptyCollection Params]

/-- The binding that a row gives, unless its version is not approved. -/
def bindingOf (r : CastRow Params) : Option (VoiceBinding Params) :=
  if r.2.approvalState ∈ [.approved, .locked] then
    some {
      voiceProfileId := r.1.voiceProfileId
      voiceProfileVersionId := r.1.voiceProfileVersionId
      ttsProviderId := r.2.ttsProviderId
      -- `row[4] or {}`
      generationParams := r.2.baseGenerationParams.getD ∅
      generationParamsHash := r.2.baseGenerationParamsHash }
  else none

def findActiveAssignment (c : Casting Params) (bookId characterId : Id)
    (role : VoiceAssignmentRole) : Option (VoiceBinding Params) :=
  let rows := c.joined.filter fun r =>
    r.1.bookId = bookId ∧ r.1.characterId = characterId ∧ r.1.role = role ∧ r.1.isActive ∧
      r.1.supersededByAssignmentId = none
  match (newestFirst rows).head? with
  | none => none
  | some row => bindingOf row

def resolveVoiceBinding (c : Casting Params) (bookId : Id) (speakerType : SpeakerType)
    (characterId narratorCharacterId : Id) : Option (VoiceBinding Params) × Bool :=
  let own :=
    if speakerType = .character then findActiveAssignment c bookId characterId .character else none
  match own with
  | some binding => (some binding, false)
  | none =>
    (findActiveAssignment c bookId narratorCharacterId .narrator,
      decide (speakerType ≠ .narrator ∨ characterId ≠ narratorCharacterId))

def preloadVoiceBindings (c : Casting Params) (bookId : Id) (characterIds : List Id)
    (narratorCharacterId : Id) : List (Id × VoiceBinding Params) :=
  let ids := (characterIds ++ [narratorCharacterId]).dedup
  if ids = [] then []
  else
    let rows := c.joined.filter fun r =>
      r.1.bookId = bookId ∧ r.1.characterId ∈ ids ∧ r.1.isActive ∧
        r.1.supersededByAssignmentId = none ∧
          (r.1.characterId = narratorCharacterId ∧ r.1.role = .narrator ∨
            r.1.characterId ≠ narratorCharacterId ∧ r.1.role = .character)
    firstByKey (fun r => r.1.characterId) bindingOf (newestFirst rows)

def resolveVoiceBindingFromCache (speakerType : SpeakerType)
    (characterId narratorCharacterId : Id)
    (bindingsByCharacter : List (Id × VoiceBinding Params)) :
    Option (VoiceBinding Params) × Bool :=
  let own := if speakerType = .character then bindingsByCharacter.lookup characterId else none
  match own with
  | some binding => (some binding, false)
  | none =>
    (bindingsByCharacter.lookup narratorCharacterId,
      decide (speakerType ≠ .narrator ∨ characterId ≠ narratorCharacterId))

/-! ## The voices that are cast -/

/-- The row of an active, unsuperseded assignment of the character to the role, and its version. -/
structure Casting.IsCast (c : Casting Params) (bookId characterId : Id)
    (role : VoiceAssignmentRole) (r : CastRow Params) : Prop where
  joined : r ∈ c.joined
  book : r.1.bookId = bookId
  character : r.1.characterId = characterId
  role : r.1.role = role
  active : r.1.isActive = true
  current : r.1.supersededByAssignmentId = none

/-- The binding `b` is the castable voice of the character in the role. -/
def Casting.Casts (c : Casting Params) (bookId characterId : Id) (role : VoiceAssignmentRole)
    (b : VoiceBinding Params) : Prop :=
  ∃ r, c.IsCast bookId characterId role r ∧ bindingOf r = some b

omit [EmptyCollection Params] in
@[simp]
theorem mem_joined {c : Casting Params} {r : CastRow Params} :
    r ∈ c.joined ↔ r.1 ∈ c.assignments ∧ r.2 ∈ c.versions ∧ r.2.id = r.1.voiceProfileVersionId := by
  obtain ⟨a, v⟩ := r
  simp only [Casting.joined, List.mem_flatMap, List.mem_map, List.mem_filter, decide_eq_true_eq]
  constructor
  · rintro ⟨a', ha', v', ⟨hv', hid⟩, heq⟩
    cases heq
    exact ⟨ha', hv', hid⟩
  · rintro ⟨ha, hv, hid⟩
    exact ⟨a, ha, v, ⟨hv, hid⟩, rfl⟩

omit [EmptyCollection Params] in
@[simp]
theorem mem_newestFirst {rows : List (CastRow Params)} {r : CastRow Params} :
    r ∈ newestFirst rows ↔ r ∈ rows :=
  List.mem_insertionSort _

omit [EmptyCollection Params] in
theorem Casting.IsCast.eq {c : Casting Params} {bookId characterId : Id}
    {role : VoiceAssignmentRole} {r r' : CastRow Params}
    (h : c.IsCast bookId characterId role r) (h' : c.IsCast bookId characterId role r') :
    r = r' := by
  obtain ⟨ha, hv, hid⟩ := mem_joined.mp h.joined
  obtain ⟨ha', hv', hid'⟩ := mem_joined.mp h'.joined
  have hassignment : r.1 = r'.1 :=
    c.assignment_active_key.eq_of_key ha ha'
      (by rw [VoiceAssignment.activeKey, if_pos h.active, h.book, h.character, h.role])
      (by rw [VoiceAssignment.activeKey, if_pos h'.active, h'.book, h'.character, h'.role])
  have hversion : r.2 = r'.2 :=
    c.version_pkey.eq_of_key hv hv' (congrArg some hid) (by rw [hid', hassignment])
  exact Prod.ext hassignment hversion

theorem findActiveAssignment_eq_some_iff {c : Casting Params} {bookId characterId : Id}
    {role : VoiceAssignmentRole} {b : VoiceBinding Params} :
    findActiveAssignment c bookId characterId role = some b ↔
      c.Casts bookId characterId role b := by
  have hmem : ∀ r, r ∈ newestFirst (c.joined.filter fun r =>
      r.1.bookId = bookId ∧ r.1.characterId = characterId ∧ r.1.role = role ∧ r.1.isActive ∧
        r.1.supersededByAssignmentId = none) ↔ c.IsCast bookId characterId role r := by
    intro r
    rw [mem_newestFirst, List.mem_filter, decide_eq_true_eq]
    constructor
    · rintro ⟨hjoined, hbook, hcharacter, hrole, hactive, hcurrent⟩
      exact ⟨hjoined, hbook, hcharacter, hrole, hactive, hcurrent⟩
    · rintro ⟨hjoined, hbook, hcharacter, hrole, hactive, hcurrent⟩
      exact ⟨hjoined, hbook, hcharacter, hrole, hactive, hcurrent⟩
  have hhead := head?_eq_some_iff_mem fun r hr r' hr' => ((hmem r).mp hr).eq ((hmem r').mp hr')
  simp only [findActiveAssignment, Casting.Casts]
  constructor
  · intro h
    split at h
    · cases h
    · next row hrow => exact ⟨row, (hmem row).mp ((hhead row).mp hrow), h⟩
  · rintro ⟨row, hrow, hb⟩
    rw [(hhead row).mpr ((hmem row).mpr hrow)]
    exact hb

/-- The role under which the dictionary holds a character's voice. -/
def cachedRole (narratorCharacterId characterId : Id) : VoiceAssignmentRole :=
  if characterId = narratorCharacterId then .narrator else .character

theorem lookup_preloadVoiceBindings_eq_some_iff {c : Casting Params} {bookId : Id}
    {characterIds : List Id} {narratorCharacterId characterId : Id} {b : VoiceBinding Params}
    (hid : characterId ∈ characterIds ++ [narratorCharacterId]) :
    (preloadVoiceBindings c bookId characterIds narratorCharacterId).lookup characterId = some b ↔
      c.Casts bookId characterId (cachedRole narratorCharacterId characterId) b := by
  have hids : characterId ∈ (characterIds ++ [narratorCharacterId]).dedup := List.mem_dedup.mpr hid
  simp only [preloadVoiceBindings]
  rw [if_neg (List.ne_nil_of_mem hids), lookup_firstByKey]
  generalize hrows : newestFirst _ = rows
  have hmem : ∀ r, r ∈ rows ∧ r.1.characterId = characterId ↔
      c.IsCast bookId characterId (cachedRole narratorCharacterId characterId) r := by
    intro r
    rw [← hrows, mem_newestFirst, List.mem_filter, decide_eq_true_eq, cachedRole]
    constructor
    · rintro ⟨⟨hjoined, hbook, -, hactive, hcurrent, hrole⟩, rfl⟩
      refine ⟨hjoined, hbook, rfl, ?_, hactive, hcurrent⟩
      rcases hrole with ⟨hnarrator, hrole⟩ | ⟨hother, hrole⟩
      · rw [if_pos hnarrator, hrole]
      · rw [if_neg hother, hrole]
    · rintro ⟨hjoined, hbook, rfl, hrole, hactive, hcurrent⟩
      refine ⟨⟨hjoined, hbook, hids, hactive, hcurrent, ?_⟩, rfl⟩
      split at hrole
      · next hnarrator => exact .inl ⟨hnarrator, hrole⟩
      · next hother => exact .inr ⟨hother, hrole⟩
  rw [findSome?_eq_some_iff_exists, Casting.Casts]
  · refine exists_congr fun r => ?_
    rw [← hmem r, and_assoc, and_congr_right_iff]
    intro _
    split
    · next hkey => simp [hkey]
    · next hkey => simp [hkey]
  · intro r hr r' hr' b b' hb hb'
    split at hb
    · next hkey =>
      split at hb'
      · next hkey' =>
        rw [((hmem r).mp ⟨hr, hkey⟩).eq ((hmem r').mp ⟨hr', hkey'⟩), hb'] at hb
        exact (Option.some.inj hb).symm
      · cases hb'
    · cases hb

theorem lookup_preloadVoiceBindings {c : Casting Params} {bookId : Id} {characterIds : List Id}
    {narratorCharacterId characterId : Id}
    (hid : characterId ∈ characterIds ++ [narratorCharacterId]) :
    (preloadVoiceBindings c bookId characterIds narratorCharacterId).lookup characterId =
      findActiveAssignment c bookId characterId (cachedRole narratorCharacterId characterId) := by
  ext b
  rw [lookup_preloadVoiceBindings_eq_some_iff hid, findActiveAssignment_eq_some_iff]

/-! ## The two resolutions -/

/-- **The cache against the queries.** For every preloaded speaker the resolution from the cache is
the resolution by queries, unless the speaker is a `CHARACTER` with the narrator's own id: the
dictionary then holds the narrator's `NARRATOR` voice where the query asks for the `CHARACTER`
voice, and the two must be the same voice or both be missing. -/
theorem resolve_fromCache_iff (c : Casting Params) (bookId : Id) (characterIds : List Id)
    (narratorCharacterId : Id) (speakerType : SpeakerType) (characterId : Id)
    (hid : characterId ∈ characterIds ++ [narratorCharacterId]) :
    resolveVoiceBindingFromCache speakerType characterId narratorCharacterId
          (preloadVoiceBindings c bookId characterIds narratorCharacterId) =
        resolveVoiceBinding c bookId speakerType characterId narratorCharacterId ↔
      (speakerType = .character ∧ characterId = narratorCharacterId →
        ∀ b, c.Casts bookId narratorCharacterId .character b ↔
          c.Casts bookId narratorCharacterId .narrator b) := by
  have hnarrator : cachedRole narratorCharacterId narratorCharacterId = .narrator := if_pos rfl
  rw [resolveVoiceBindingFromCache, resolveVoiceBinding, lookup_preloadVoiceBindings hid,
    lookup_preloadVoiceBindings (List.mem_append_right _ (List.mem_singleton_self _)), hnarrator]
  by_cases hspeaker : speakerType = .character
  swap
  -- No other speaker type asks for the speaker's own voice.
  · simp [hspeaker]
  by_cases hself : characterId = narratorCharacterId
  swap
  · have hrole : cachedRole narratorCharacterId characterId = .character := if_neg hself
    simp [hrole, hself]
  subst hself
  rw [hnarrator]
  have hsame : (∀ b, c.Casts bookId characterId .character b ↔
      c.Casts bookId characterId .narrator b) ↔
        findActiveAssignment c bookId characterId .narrator =
          findActiveAssignment c bookId characterId .character := by
    rw [Option.ext_iff]
    simp only [findActiveAssignment_eq_some_iff]
    exact forall_congr' fun _ => Iff.comm
  rw [hsame]
  -- A voice found only as the narrator's changes the flag, one found only as the character's
  -- the voice.
  cases findActiveAssignment c bookId characterId .narrator <;>
    cases findActiveAssignment c bookId characterId .character <;> simp [hspeaker]

/-- Book 1 whose narrator, character 7, has an approved voice in the role of narrator. -/
def castNarrator : Casting (List (String × ℕ)) where
  assignments := [⟨1, 1, 7, 3, 4, .narrator, true, 0, none⟩]
  versions := [⟨4, .approved, "xtts", none, 0⟩]
  assignment_active_key := by decide
  version_pkey := by decide

/-- A character without a voice of its own falls back to the narrator's, from the cache and by
queries. -/
theorem resolve_fromCache_uncast :
    resolveVoiceBindingFromCache .character 8 7 (preloadVoiceBindings castNarrator 1 [8] 7) =
        (some ⟨3, 4, "xtts", ∅, 0⟩, true) ∧
      resolveVoiceBinding castNarrator 1 .character 8 7 = (some ⟨3, 4, "xtts", ∅, 0⟩, true) :=
  have hsame := (resolve_fromCache_iff castNarrator 1 [8] 7 .character 8 (by decide)).mpr
    fun h => absurd h.2 (by decide)
  have hfallback : resolveVoiceBindingFromCache .character 8 7
      (preloadVoiceBindings castNarrator 1 [8] 7) = (some ⟨3, 4, "xtts", ∅, 0⟩, true) := by decide
  ⟨hfallback, hsame ▸ hfallback⟩

/-- Asked for the narrator's voice as that of a `CHARACTER`, the cache reports the character's own
voice where the queries report a fallback. -/
theorem not_forall_resolve_fromCache :
    ¬ ∀ (c : Casting (List (String × ℕ))) (bookId : Id) (characterIds : List Id)
        (narratorCharacterId : Id) (speakerType : SpeakerType),
        ∀ characterId ∈ characterIds ++ [narratorCharacterId],
          resolveVoiceBindingFromCache speakerType characterId narratorCharacterId
              (preloadVoiceBindings c bookId characterIds narratorCharacterId) =
            resolveVoiceBinding c bookId speakerType characterId narratorCharacterId := by
  intro h
  have hflag := congrArg Prod.snd (h castNarrator 1 [] 7 .character 7 (by decide))
  revert hflag
  decide

end AudioBook.VoiceResolution
