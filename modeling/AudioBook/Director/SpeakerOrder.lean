import AudioBook.Director.SpeakerResolver
import Mathlib.Data.List.Perm.Basic

/-!
# The Order of the Known Speakers

Strategies 2 to 6 pick a speaker only where there is one to pick, so the order of the known speakers
does not matter to them. Strategy 1 looks a name up in a dictionary, where the last speaker with the
name has it: the resolution is free of the order if and only if the attributed name belongs to one
character (`neverArbitrary_iff`).
-/

namespace AudioBook.Direction

variable {u : PythonText} {q : SpeakerQuery}

/-! ## The Only Item of a List -/

def only {α : Type*} : List α → Option α
  | [x] => some x
  | _ => none

theorem only_eq_some_iff {α : Type*} {items : List α} {x : α} :
    only items = some x ↔ items = [x] := by
  rcases items with _ | ⟨y, _ | ⟨z, items⟩⟩
  · simp [only]
  · simp [only]
  · simp [only]

theorem only_perm {α : Type*} {items items' : List α} (hperm : items.Perm items') :
    only items = only items' := by
  apply Option.ext
  intro x
  rw [only_eq_some_iff, only_eq_some_iff]
  constructor
  · rintro rfl
    exact List.perm_singleton.mp hperm.symm
  · rintro rfl
    exact List.perm_singleton.mp hperm

theorem eq_of_only {α : Type*} {items : List α} {x y : α} (honly : only items = some x)
    (hmem : y ∈ items) : y = x := by
  rw [only_eq_some_iff.mp honly] at hmem
  exact List.mem_singleton.mp hmem

/-! ## The Strategies -/

/-- The names that the patterns of strategy 1 attribute, normalized. -/
def attributedNames (u : PythonText) (q : SpeakerQuery) : List Text :=
  [speakerAfterRe, speakerBeforeRe u].filterMap fun pattern =>
    (pattern.searchGroup none q.window).map (normalizeKey u)

/-- The first of them that a known speaker bears. -/
def decidingName (u : PythonText) (q : SpeakerQuery) : Option Text :=
  (attributedNames u q).find? fun name =>
    q.knownSpeakers.any fun ks => decide (name ∈ ks.normalizedNames)

/-- The known speakers that strategies 4 and 5 choose from. -/
def otherParticipants (q : SpeakerQuery) : List KnownSpeaker :=
  q.plausible.filter fun ks => decide (some ks.characterId ≠ q.previousSpeakerId)

/-- The speaker of strategies 4 and 5. -/
def nextInTurn (q : SpeakerQuery) : Option KnownSpeaker :=
  if q.previousSpeakerId.isSome then only (otherParticipants q) else none

theorem isSome_speakerByName (speakers : List KnownSpeaker) (name : Text) :
    (speakerByName speakers name).isSome
      = speakers.any fun ks => decide (name ∈ ks.normalizedNames) := by
  rw [speakerByName, List.isSome_find?, List.any_reverse]

variable {ks : KnownSpeaker}

theorem speakerByName_eq_some {speakers : List KnownSpeaker} {name : Text}
    (hname : speakerByName speakers name = some ks) : ks ∈ speakers ∧ name ∈ ks.normalizedNames :=
  ⟨List.mem_reverse.mp (List.mem_of_find?_eq_some hname),
    of_decide_eq_true (by simpa using List.find?_some hname)⟩

theorem explicitAttribution_eq :
    explicitAttribution u q = (decidingName u q).bind (speakerByName q.knownSpeakers) := by
  unfold explicitAttribution decidingName attributedNames
  generalize [speakerAfterRe, speakerBeforeRe u] = patterns
  induction patterns with
  | nil => rfl
  | cons pattern patterns ih =>
      rw [List.findSome?_cons, List.filterMap_cons]
      cases hgroup : pattern.searchGroup none q.window with
      | none => simpa [hgroup] using ih
      | some name =>
          have hsome := isSome_speakerByName q.knownSpeakers (normalizeKey u name)
          cases hspeaker : speakerByName q.knownSpeakers (normalizeKey u name) with
          | none =>
              rw [hspeaker] at hsome
              simp only [Option.bind_some, hspeaker, Option.map_some]
              rw [List.find?_cons_of_neg (by simpa using hsome.symm), ih]
          | some ks =>
              rw [hspeaker] at hsome
              simp only [Option.bind_some, hspeaker, Option.map_some]
              rw [List.find?_cons_of_pos (by exact hsome.symm), Option.bind_some, hspeaker]

theorem resolveSpeaker_dialogue (hdialogue : q.span.isDialogueHint = true) :
    resolveSpeaker u q =
      match explicitAttribution u q with
      | some ks => ⟨.character, ks.characterId, 19 / 20, .explicitAttribution⟩
      | none =>
          match only (exactHits u q) with
          | some ks => ⟨.character, ks.characterId, 3 / 4,
              if q.scoped.length < q.knownSpeakers.length then .scopedAliasMatch
              else .exactAliasMatch⟩
          | none =>
              match nextInTurn q with
              | some ks => ⟨.character, ks.characterId, 3 / 5,
                  if (pronounRe u).search none q.window then .pronounResolution else .turnTaking⟩
              | none =>
                  match only q.plausible with
                  | some ks => ⟨.character, ks.characterId, 11 / 20, .soleParticipantInference⟩
                  | none => ⟨.unknown, q.sentinels.unknownSpeaker, 0, .unresolvedFallback⟩ := by
  rw [resolveSpeaker, if_neg (by simp [hdialogue])]
  cases explicitAttribution u q with
  | some ks => rfl
  | none =>
      rcases exactHits u q with _ | ⟨hit, _ | ⟨hit', hits⟩⟩
      all_goals
        unfold nextInTurn otherParticipants
        cases q.previousSpeakerId.isSome <;>
          rcases q.plausible.filter _ with _ | ⟨other, _ | ⟨other', others⟩⟩ <;>
            rcases q.plausible with _ | ⟨sole, _ | ⟨sole', speakers⟩⟩ <;> rfl

/-! ## The Order -/

section Order

variable {speakers : List KnownSpeaker}

theorem decidingName_perm (hperm : speakers.Perm q.knownSpeakers) :
    decidingName u { q with knownSpeakers := speakers } = decidingName u q := by
  unfold decidingName
  have hbears : (fun name => speakers.any fun ks => decide (name ∈ ks.normalizedNames))
      = fun name => q.knownSpeakers.any fun ks => decide (name ∈ ks.normalizedNames) := by
    funext name
    exact hperm.any_eq
  show (attributedNames u q).find? _ = _
  rw [hbears]

theorem scoped_perm (hperm : speakers.Perm q.knownSpeakers) :
    ({ q with knownSpeakers := speakers } : SpeakerQuery).scoped.Perm q.scoped := by
  have hpresent := hperm.filter fun ks => decide (ks.characterId ∈ q.sceneParticipantIds)
  unfold SpeakerQuery.scoped
  simp only
  by_cases hnil : q.knownSpeakers.filter
      (fun ks => decide (ks.characterId ∈ q.sceneParticipantIds)) = []
  · rw [if_pos hnil, if_pos (List.perm_nil.mp (hnil ▸ hpresent))]
    exact hperm
  · rw [if_neg hnil, if_neg fun h => hnil (List.nil_perm.mp (by rwa [h] at hpresent))]
    exact hpresent

theorem plausible_perm (hperm : speakers.Perm q.knownSpeakers) :
    ( SpeakerQuery.plausible { q with knownSpeakers := speakers }).Perm q.plausible := by
  unfold SpeakerQuery.plausible
  simp only
  split
  · exact hperm
  · exact scoped_perm hperm

theorem exactHits_perm (hperm : speakers.Perm q.knownSpeakers) :
    (exactHits u { q with knownSpeakers := speakers }).Perm (exactHits u q) :=
  (scoped_perm hperm).filter _

theorem nextInTurn_perm (hperm : speakers.Perm q.knownSpeakers) :
    nextInTurn { q with knownSpeakers := speakers } = nextInTurn q := by
  unfold nextInTurn otherParticipants
  rw [only_perm ((plausible_perm hperm).filter fun ks =>
    decide (some ks.characterId ≠ q.previousSpeakerId))]

theorem resolveSpeaker_perm (hperm : speakers.Perm q.knownSpeakers)
    (hattribution : (explicitAttribution u { q with knownSpeakers := speakers }).map
      KnownSpeaker.characterId = (explicitAttribution u q).map KnownSpeaker.characterId) :
    resolveSpeaker u { q with knownSpeakers := speakers } = resolveSpeaker u q := by
  by_cases hdialogue : q.span.isDialogueHint = true
  · rw [resolveSpeaker_dialogue hdialogue,
      resolveSpeaker_dialogue (q := { q with knownSpeakers := speakers }) hdialogue,
      only_perm (exactHits_perm hperm), nextInTurn_perm hperm, only_perm (plausible_perm hperm),
      (scoped_perm hperm).length_eq, hperm.length_eq]
    cases hks : explicitAttribution u q with
    | none =>
        rw [hks, Option.map_none, Option.map_eq_none_iff] at hattribution
        rw [hattribution]
        rfl
    | some ks =>
        rw [hks, Option.map_some, Option.map_eq_some_iff] at hattribution
        obtain ⟨ks', hks', hid⟩ := hattribution
        rw [hks']
        simp only [hid]
  · have hnarration : q.span.isDialogueHint = false := by simpa using hdialogue
    simp [resolveSpeaker, hnarration]

end Order

/-! ## Ambiguous Names -/

/-- The name that decides belongs to one character. -/
def UniquelyAttributed (u : PythonText) (q : SpeakerQuery) : Prop :=
  ∀ name, decidingName u q = some name → ∀ ks ∈ q.knownSpeakers, ∀ ks' ∈ q.knownSpeakers,
    name ∈ ks.normalizedNames → name ∈ ks'.normalizedNames → ks.characterId = ks'.characterId

/-- The evidence of the text fits two different characters equally: they have the same names, they
are both in the scene or both not, and neither spoke before. -/
structure FitsEqually (q : SpeakerQuery) (ks ks' : KnownSpeaker) : Prop where
  differ : ks.characterId ≠ ks'.characterId
  names : ∀ name, name ∈ ks.normalizedNames ↔ name ∈ ks'.normalizedNames
  present : ks.characterId ∈ q.sceneParticipantIds ↔ ks'.characterId ∈ q.sceneParticipantIds
  turn : some ks.characterId = q.previousSpeakerId ↔ some ks'.characterId = q.previousSpeakerId

/-- The resolution is not an arbitrary pick. -/
structure NeverArbitrary (u : PythonText) (q : SpeakerQuery) : Prop where
  /-- The order of the known speakers does not matter. -/
  orderFree : ∀ speakers : List KnownSpeaker, speakers.Perm q.knownSpeakers →
    (resolveSpeaker u { q with knownSpeakers := speakers }).characterId
        = (resolveSpeaker u q).characterId ∧
      (resolveSpeaker u { q with knownSpeakers := speakers }).strategy
        = (resolveSpeaker u q).strategy
  /-- A speaker is not picked for whom the evidence fits another one equally. -/
  notTied : ∀ id, (∀ ks ∈ q.knownSpeakers, ks.characterId = id →
      ∃ ks' ∈ q.knownSpeakers, FitsEqually q ks ks') →
    ¬((resolveSpeaker u q).speakerType = .character ∧ (resolveSpeaker u q).characterId = id)
  /-- Where it fits everyone equally, the speaker is unknown. -/
  unknown : q.span.isDialogueHint = true →
    (∀ ks ∈ q.knownSpeakers, ∃ ks' ∈ q.knownSpeakers, FitsEqually q ks ks') →
    (resolveSpeaker u q).characterId = q.sentinels.unknownSpeaker ∧
      (resolveSpeaker u q).strategy = .unresolvedFallback

variable {ks' : KnownSpeaker}

theorem FitsEqually.mem_scoped (hfits : FitsEqually q ks ks') (hknown : ks' ∈ q.knownSpeakers)
    (hmem : ks ∈ q.scoped) : ks' ∈ q.scoped := by
  unfold SpeakerQuery.scoped at hmem ⊢
  simp only at hmem ⊢
  split
  · exact hknown
  · next hsome =>
      rw [if_neg hsome, List.mem_filter, decide_eq_true_iff] at hmem
      rw [List.mem_filter, decide_eq_true_iff]
      exact ⟨hknown, hfits.present.mp hmem.2⟩

theorem FitsEqually.mem_candidates (hfits : FitsEqually q ks ks') (hknown : ks' ∈ q.knownSpeakers)
    (hmem : ks ∈ q.plausible) : ks' ∈ q.plausible := by
  unfold SpeakerQuery.plausible at hmem ⊢
  split
  · exact hknown
  · next hsome =>
      rw [if_neg hsome] at hmem
      exact hfits.mem_scoped hknown hmem

theorem FitsEqually.mem_exactHits (hfits : FitsEqually q ks ks') (hknown : ks' ∈ q.knownSpeakers)
    (hmem : ks ∈ exactHits u q) : ks' ∈ exactHits u q := by
  obtain ⟨hscoped, hany⟩ := List.mem_filter.mp hmem
  refine List.mem_filter.mpr ⟨hfits.mem_scoped hknown hscoped, ?_⟩
  obtain ⟨name, hname, hwindow⟩ := List.any_eq_true.mp hany
  exact List.any_eq_true.mpr ⟨name, (hfits.names name).mp hname, hwindow⟩

theorem FitsEqually.mem_otherParticipants (hfits : FitsEqually q ks ks')
    (hknown : ks' ∈ q.knownSpeakers) (hmem : ks ∈ otherParticipants q) :
    ks' ∈ otherParticipants q := by
  obtain ⟨hcandidate, hother⟩ := List.mem_filter.mp hmem
  refine List.mem_filter.mpr ⟨hfits.mem_candidates hknown hcandidate, ?_⟩
  rw [decide_eq_true_iff] at hother ⊢
  exact fun h => hother (hfits.turn.mpr h)

theorem mem_of_mem_scoped (hmem : ks ∈ q.scoped) : ks ∈ q.knownSpeakers := by
  unfold SpeakerQuery.scoped at hmem
  simp only at hmem
  split at hmem
  · exact hmem
  · exact (List.mem_filter.mp hmem).1

theorem mem_of_mem_candidates (hmem : ks ∈ q.plausible) : ks ∈ q.knownSpeakers := by
  unfold SpeakerQuery.plausible at hmem
  split at hmem
  · exact hmem
  · exact mem_of_mem_scoped hmem

theorem mem_of_only {α : Type*} {items : List α} {x : α} (honly : only items = some x) :
    x ∈ items := by
  rw [only_eq_some_iff.mp honly]
  exact List.mem_singleton_self x

theorem exists_best_of_character
    (hunique : q.span.isDialogueHint = true → UniquelyAttributed u q)
    (htype : (resolveSpeaker u q).speakerType = .character) :
    ∃ ks ∈ q.knownSpeakers, ks.characterId = (resolveSpeaker u q).characterId ∧
      ∀ ks' ∈ q.knownSpeakers, ¬FitsEqually q ks ks' := by
  by_cases hdialogue : q.span.isDialogueHint = true
  · rw [resolveSpeaker_dialogue hdialogue] at htype ⊢
    -- one case per strategy: a speaker that fits equally is another item of the same list
    cases hexplicit : explicitAttribution u q with
    | some ks =>
        rw [explicitAttribution_eq] at hexplicit
        obtain ⟨name, hname, hspeaker⟩ := Option.bind_eq_some_iff.mp hexplicit
        obtain ⟨hmem, hbears⟩ := speakerByName_eq_some hspeaker
        exact ⟨ks, hmem, rfl, fun ks' hmem' hfits => hfits.differ
          (hunique hdialogue name hname ks hmem ks' hmem' hbears ((hfits.names name).mp hbears))⟩
    | none =>
        cases hhit : only (exactHits u q) with
        | some ks =>
            have hmem := mem_of_only hhit
            refine ⟨ks, mem_of_mem_scoped (List.mem_filter.mp hmem).1, rfl,
              fun ks' hmem' hfits => hfits.differ ?_⟩
            rw [eq_of_only hhit (hfits.mem_exactHits hmem' hmem)]
        | none =>
            cases hnext : nextInTurn q with
            | some ks =>
                unfold nextInTurn at hnext
                split at hnext
                · have hmem := mem_of_only hnext
                  refine ⟨ks, mem_of_mem_candidates (List.mem_filter.mp hmem).1, rfl,
                    fun ks' hmem' hfits => hfits.differ ?_⟩
                  rw [eq_of_only hnext (hfits.mem_otherParticipants hmem' hmem)]
                · cases hnext
            | none =>
                cases hsole : only q.plausible with
                | some ks =>
                    have hmem := mem_of_only hsole
                    refine ⟨ks, mem_of_mem_candidates hmem, rfl,
                      fun ks' hmem' hfits => hfits.differ ?_⟩
                    rw [eq_of_only hsole (hfits.mem_candidates hmem' hmem)]
                | none =>
                    rw [hexplicit, hhit, hnext, hsole] at htype
                    cases htype
  · have hnarration : q.span.isDialogueHint = false := by simpa using hdialogue
    simp [resolveSpeaker, hnarration] at htype

theorem resolveSpeaker_of_not_character (hdialogue : q.span.isDialogueHint = true)
    (htype : (resolveSpeaker u q).speakerType ≠ .character) :
    resolveSpeaker u q = ⟨.unknown, q.sentinels.unknownSpeaker, 0, .unresolvedFallback⟩ := by
  rw [resolveSpeaker_dialogue hdialogue] at htype ⊢
  cases hexplicit : explicitAttribution u q with
  | some ks => exact absurd (by rw [hexplicit]) htype
  | none =>
      cases hhit : only (exactHits u q) with
      | some ks => exact absurd (by rw [hexplicit, hhit]) htype
      | none =>
          cases hnext : nextInTurn q with
          | some ks => exact absurd (by rw [hexplicit, hhit, hnext]) htype
          | none =>
              cases hsole : only q.plausible with
              | some ks => exact absurd (by rw [hexplicit, hhit, hnext, hsole]) htype
              | none => rfl

theorem speakerByName_append (speakers : List KnownSpeaker) {name : Text}
    (hname : name ∈ ks.normalizedNames) : speakerByName (speakers ++ [ks]) name = some ks := by
  rw [speakerByName, List.reverse_append, List.reverse_singleton, List.singleton_append,
    List.find?_cons_of_pos (by simpa using hname)]

theorem resolveSpeaker_last (hdialogue : q.span.isDialogueHint = true) {name : Text}
    (hname : decidingName u q = some name) (hmem : ks ∈ q.knownSpeakers)
    (hbears : name ∈ ks.normalizedNames) :
    ∃ speakers : List KnownSpeaker, speakers.Perm q.knownSpeakers ∧
      (resolveSpeaker u { q with knownSpeakers := speakers }).characterId = ks.characterId := by
  have hperm : (q.knownSpeakers.erase ks ++ [ks]).Perm q.knownSpeakers :=
    (List.perm_append_singleton ks _).trans (List.perm_cons_erase hmem).symm
  refine ⟨_, hperm, ?_⟩
  rw [resolveSpeaker_dialogue (by exact hdialogue), explicitAttribution_eq,
    decidingName_perm hperm, hname, Option.bind_some, speakerByName_append _ hbears]

/-- The resolution is never an arbitrary pick if and only if the name that decides about dialogue
belongs to one character. -/
theorem neverArbitrary_iff (u : PythonText) (q : SpeakerQuery) :
    NeverArbitrary u q ↔ (q.span.isDialogueHint = true → UniquelyAttributed u q) := by
  constructor
  · intro hnever hdialogue name hname ks hmem ks' hmem' hbears hbears'
    obtain ⟨speakers, hperm, hid⟩ := resolveSpeaker_last hdialogue hname hmem hbears
    obtain ⟨speakers', hperm', hid'⟩ := resolveSpeaker_last hdialogue hname hmem' hbears'
    rw [← hid, ← hid', (hnever.orderFree speakers hperm).1, (hnever.orderFree speakers' hperm').1]
  · intro hunique
    have hnotTied : ∀ id, (∀ ks ∈ q.knownSpeakers, ks.characterId = id →
        ∃ ks' ∈ q.knownSpeakers, FitsEqually q ks ks') →
        ¬((resolveSpeaker u q).speakerType = .character ∧ (resolveSpeaker u q).characterId = id) := by
      rintro id htied ⟨htype, rfl⟩
      obtain ⟨ks, hmem, hid, hbest⟩ := exists_best_of_character hunique htype
      obtain ⟨ks', hmem', hfits⟩ := htied ks hmem hid
      exact hbest ks' hmem' hfits
    refine ⟨fun speakers hperm => ?_, hnotTied, fun hdialogue htied => ?_⟩
    · have heq : resolveSpeaker u { q with knownSpeakers := speakers } = resolveSpeaker u q := by
        by_cases hdialogue : q.span.isDialogueHint = true
        · apply resolveSpeaker_perm hperm
          rw [explicitAttribution_eq, explicitAttribution_eq, decidingName_perm hperm]
          cases hname : decidingName u q with
          | none => rfl
          | some name =>
              rw [Option.bind_some, Option.bind_some]
              -- both dictionaries have a speaker of the name
              have hany := List.find?_some hname
              have hsome := (isSome_speakerByName q.knownSpeakers name).trans hany
              have hsome' := (isSome_speakerByName speakers name).trans
                (hperm.any_eq.trans hany)
              obtain ⟨ks, hks⟩ := Option.isSome_iff_exists.mp hsome
              obtain ⟨ks', hks'⟩ := Option.isSome_iff_exists.mp hsome'
              obtain ⟨hmem, hbears⟩ := speakerByName_eq_some hks
              obtain ⟨hmem', hbears'⟩ := speakerByName_eq_some hks'
              have hid := hunique hdialogue name hname ks hmem ks' (hperm.mem_iff.mp hmem')
                hbears hbears'
              show (speakerByName speakers name).map _ = _
              rw [hks, hks', Option.map_some, Option.map_some, hid]
        · have hnarration : q.span.isDialogueHint = false := by simpa using hdialogue
          simp [resolveSpeaker, hnarration]
      rw [heq]
      exact ⟨rfl, rfl⟩
    · have htype : (resolveSpeaker u q).speakerType ≠ .character := fun htype =>
        hnotTied _ (fun ks hmem _ => htied ks hmem) ⟨htype, rfl⟩
      rw [resolveSpeaker_of_not_character hdialogue htype]
      exact ⟨rfl, rfl⟩

/-- Two characters of one name, and a speech tag with this name. -/
def sharedName : SpeakerQuery where
  span := ⟨0, 5, "\"Hi,\"".toList, true⟩
  paragraphText := "\"Hi,\" said Alex.".toList
  knownSpeakers := [⟨1, "Alex".toList, ["alex".toList], none⟩, ⟨2, "Alex".toList, ["alex".toList], none⟩]
  sceneParticipantIds := [1, 2]
  previousSpeakerId := none
  sentinels := ⟨11, 12, 13, 14⟩

/-- The last one of the two is picked, with either order. -/
theorem not_forall_neverArbitrary : ¬∀ (u : PythonText) (q : SpeakerQuery), NeverArbitrary u q := by
  intro h
  have hpick := ((h asciiText sharedName).orderFree sharedName.knownSpeakers.reverse
    (List.reverse_perm _)).1
  revert hpick
  decide +kernel

end AudioBook.Direction
