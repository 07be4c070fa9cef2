import AudioBook.Semantic.Registry
import Mathlib.Data.List.TakeWhile

/-!
# What Linking Does

The names of a chapter have distinct keys, and linking settles each of them by one key: a one-word
name that is the first word of exactly one multi-word name by that longer one, and every other name
by itself.

Main results:

- `countsOk_detectNames`: the names of a chapter have distinct keys, which their spellings
  determine.
- `map_settled_detectCharacters`: every mention is resolved by its settling key.
- `map_presentIn_detectCharacters`: a mention is present where its name is.
-/

namespace AudioBook

variable {u : PythonText}

/-! ## Names -/

/-- The keys are distinct, and each is the key of its spelling. -/
structure CountsOk (u : PythonText) (counts : List NameCount) : Prop where
  nodup : (counts.map NameCount.key).Nodup
  key : ∀ n ∈ counts, n.key = normalizeKey u n.surfaceForm

theorem countsOk_nil : CountsOk u [] := ⟨List.nodup_nil, by simp⟩

theorem CountsOk.countName {counts : List NameCount} (h : CountsOk u counts) (paragraphId : Id)
    (isSpeaker : Bool) (surfaceForm : Text) :
    CountsOk u (countName u paragraphId isSpeaker counts surfaceForm) := by
  unfold AudioBook.countName
  dsimp only
  split
  · -- The key is there: its row changes, and keeps its key and its spelling.
    constructor
    · rw [List.map_map]
      convert h.nodup using 2
      ext n : 1
      simp only [Function.comp_apply]
      split <;> rfl
    · intro n' hn'
      obtain ⟨n, hn, rfl⟩ := List.mem_map.mp hn'
      split
      · exact h.key n hn
      · exact h.key n hn
  · next hfresh =>
    constructor
    · rw [List.map_append, List.nodup_append]
      refine ⟨h.nodup, by simp, ?_⟩
      rintro key hkey key' hkey' rfl
      obtain ⟨n, hn, rfl⟩ := List.mem_map.mp hkey
      refine hfresh (List.any_eq_true.mpr ⟨n, hn, decide_eq_true ?_⟩)
      exact List.mem_singleton.mp hkey'
    · intro n hn
      rcases List.mem_append.mp hn with hn | hn
      · exact h.key n hn
      · obtain rfl := List.mem_singleton.mp hn
        rfl

theorem CountsOk.foldl_countName {counts : List NameCount} (h : CountsOk u counts)
    (paragraphId : Id) (isSpeaker : Bool) (surfaceForms : List Text) :
    CountsOk u (surfaceForms.foldl (AudioBook.countName u paragraphId isSpeaker) counts) := by
  induction surfaceForms generalizing counts with
  | nil => exact h
  | cons surfaceForm surfaceForms ih => exact ih (h.countName paragraphId isSpeaker surfaceForm)

theorem countsOk_detectNames (u : PythonText) (paragraphs : List ParagraphInput) :
    CountsOk u (detectNames u paragraphs) := by
  have hall : ∀ counts, CountsOk u counts →
      CountsOk u (paragraphs.foldl (countParagraph u) counts) := by
    induction paragraphs with
    | nil => exact fun _ h => h
    | cons paragraph paragraphs ih =>
      exact fun _ h => ih _ ((h.foldl_countName _ _ _).foldl_countName _ _ _)
  have h := hall [] countsOk_nil
  exact ⟨h.nodup.sublist (List.filter_sublist.map _), fun n hn => h.key n (List.mem_filter.mp hn).1⟩

/-! ## Linking -/

def settlingKey (keys : List Text) (key : Text) : Text :=
  if isMultiWord key then key
  else
    match longForms keys key with
    | [longKey] => longKey
    | _ => key

theorem mem_longForms {keys : List Text} {shortKey longKey : Text} :
    longKey ∈ longForms keys shortKey ↔
      longKey ∈ keys ∧ isMultiWord longKey = true ∧ firstWord longKey = shortKey := by
  simp [longForms]

def CharacterMention.settled (m : CharacterMention) : Text × Text × Option Id :=
  (m.surfaceForm, m.normalizedKey, m.resolvedCharacterId)

section linking

variable {index : Text → Option Id} {names : List NameCount} {candidates : List CharacterMention}

/-- What is settled about a name once the short forms in `linked` are. -/
def settledBy (index : Text → Option Id) (keys linked : List Text) (n : NameCount) :
    Text × Text × Option Id :=
  (n.surfaceForm, n.key,
    if n.key ∈ linked then index (settlingKey keys n.key) else index n.key)

theorem map_normalizedKey_of_settled {f : NameCount → Option Id}
    (h : candidates.map CharacterMention.settled = names.map fun n => (n.surfaceForm, n.key, f n)) :
    candidates.map CharacterMention.normalizedKey = names.map NameCount.key := by
  have hkeys := congrArg (List.map fun t : Text × Text × Option Id => t.2.1) h
  simpa [Function.comp_def, CharacterMention.settled] using hkeys

theorem exists_find?_of_settled {keys linked : List Text} {key : Text}
    (h : candidates.map CharacterMention.settled = names.map (settledBy index keys linked))
    (hkey : key ∈ names.map NameCount.key) (hlinked : key ∉ linked) :
    ∃ m, candidates.find? (fun m => decide (m.normalizedKey = key)) = some m ∧
      m.resolvedCharacterId = index key := by
  rw [← map_normalizedKey_of_settled h, List.mem_map] at hkey
  obtain ⟨m₀, hm₀, rfl⟩ := hkey
  cases hfind : candidates.find? fun m => decide (m.normalizedKey = m₀.normalizedKey) with
  | none =>
    have hnone := List.find?_eq_none.mp hfind m₀ hm₀
    simp at hnone
  | some m =>
    refine ⟨m, rfl, ?_⟩
    have hm := List.mem_map_of_mem (f := CharacterMention.settled) (List.mem_of_find?_eq_some hfind)
    have hkey : m.normalizedKey = m₀.normalizedKey := by simpa using List.find?_some hfind
    rw [h, List.mem_map] at hm
    obtain ⟨n, -, hn⟩ := hm
    simp only [settledBy, CharacterMention.settled, Prod.mk.injEq] at hn
    obtain ⟨-, hnkey, hresolved⟩ := hn
    rw [← hresolved, hnkey, hkey, if_neg hlinked]

theorem map_settled_updateCandidate_of_same {key : Text} {isSpeaker : Bool} {evidence : List Id} :
    (updateCandidate key (fun m => { m with isSpeaker, evidenceParagraphIds := evidence })
      candidates).map CharacterMention.settled = candidates.map CharacterMention.settled := by
  rw [updateCandidate, List.map_map]
  refine List.map_congr_left fun m _ => ?_
  show CharacterMention.settled (if _ then _ else _) = _
  split
  · rfl
  · rfl

theorem map_settled_updateCandidate {key : Text} {aliasType : AliasType} {resolved : Option Id} :
    (updateCandidate key (fun m => { m with aliasType, resolvedCharacterId := resolved })
      candidates).map CharacterMention.settled
      = (candidates.map CharacterMention.settled).map fun t =>
          if t.2.1 = key then (t.1, t.2.1, resolved) else t := by
  rw [updateCandidate, List.map_map, List.map_map]
  refine List.map_congr_left fun m _ => ?_
  show CharacterMention.settled (if _ then _ else _) = if m.normalizedKey = key then _ else _
  split
  · rfl
  · rfl

theorem map_settled_linkShortForm {keys linked : List Text} {shortKey : Text}
    (hkeys : names.map NameCount.key = keys)
    (h : candidates.map CharacterMention.settled = names.map (settledBy index keys linked))
    (hlinked : ∀ key ∈ linked, isMultiWord key = false) (hshort : shortKey ∈ keys)
    (hsingle : isMultiWord shortKey = false) :
    (linkShortForm keys candidates shortKey).map CharacterMention.settled
      = names.map (settledBy index keys (shortKey :: linked)) := by
  have hsettling : settlingKey keys shortKey = match longForms keys shortKey with
      | [longKey] => longKey
      | _ => shortKey := by
    rw [settlingKey, if_neg (by simp [hsingle])]
  unfold linkShortForm
  split
  · next longKey hlong =>
    have hlong' : longKey ∈ longForms keys shortKey := by
      rw [hlong]
      exact List.mem_singleton_self _
    obtain ⟨hmem, hmulti, -⟩ := mem_longForms.mp hlong'
    have hnot : longKey ∉ linked := fun hin => by simp [hlinked longKey hin] at hmulti
    obtain ⟨long, hfindLong, hresolved⟩ :=
      exists_find?_of_settled h (by rw [hkeys]; exact hmem) hnot
    obtain ⟨short, hfindShort⟩ : ∃ short,
        candidates.find? (fun m => decide (m.normalizedKey = shortKey)) = some short := by
      rw [← Option.isSome_iff_exists, List.find?_isSome]
      rw [← hkeys, ← map_normalizedKey_of_settled h, List.mem_map] at hshort
      obtain ⟨m, hm, hkey⟩ := hshort
      exact ⟨m, hm, decide_eq_true hkey⟩
    rw [hfindLong, hfindShort]
    -- The short form takes over who the long form is; the long form stays who it is.
    simp only [map_settled_updateCandidate, map_settled_updateCandidate_of_same, h, List.map_map,
      hresolved]
    refine List.map_congr_left fun n _ => ?_
    by_cases hn : n.key = shortKey
    · simp [settledBy, hn, hsettling, hlong]
    · simp [settledBy, hn]
  · next hother =>
    rw [h]
    refine List.map_congr_left fun n _ => ?_
    by_cases hn : n.key = shortKey
    · have hself : settlingKey keys shortKey = shortKey := by
        rw [hsettling]
        split
        · next longKey hlong => exact absurd hlong (hother longKey)
        · rfl
      simp [settledBy, hn, hself]
    · simp [settledBy, hn]

theorem map_settled_foldl_linkShortForm {keys shortKeys linked : List Text}
    (hkeys : names.map NameCount.key = keys)
    (h : candidates.map CharacterMention.settled = names.map (settledBy index keys linked))
    (hlinked : ∀ key ∈ linked, isMultiWord key = false)
    (hshort : ∀ key ∈ shortKeys, key ∈ keys ∧ isMultiWord key = false) :
    (shortKeys.foldl (linkShortForm keys) candidates).map CharacterMention.settled
      = names.map (settledBy index keys (shortKeys.reverse ++ linked)) := by
  induction shortKeys generalizing candidates linked with
  | nil => exact h
  | cons shortKey shortKeys ih =>
    obtain ⟨hmem, hsingle⟩ := hshort shortKey List.mem_cons_self
    have hstep := map_settled_linkShortForm hkeys h hlinked hmem hsingle
    rw [List.foldl_cons, ih hstep ?_ fun key hkey => hshort key (List.mem_cons_of_mem _ hkey)]
    · rw [List.reverse_cons, List.append_assoc, List.singleton_append]
    · intro key hkey
      rcases List.mem_cons.mp hkey with rfl | hkey
      · exact hsingle
      · exact hlinked key hkey

theorem map_settled_detectCharacters (paragraphs : List ParagraphInput) :
    (detectCharacters u paragraphs index).map CharacterMention.settled
      = (detectNames u paragraphs).map fun n => (n.surfaceForm, n.key,
          index (settlingKey ((detectNames u paragraphs).map NameCount.key) n.key)) := by
  have hstart : ((detectNames u paragraphs).map (candidateOf index)).map CharacterMention.settled
      = (detectNames u paragraphs).map
          (settledBy index ((detectNames u paragraphs).map NameCount.key) []) := by
    rw [List.map_map]
    refine List.map_congr_left fun n _ => ?_
    show (_, _, _) = (_, _, ite _ _ _)
    rw [if_neg List.not_mem_nil]
    rfl
  have hkeys := map_normalizedKey_of_settled hstart
  rw [detectCharacters, linkShortFormsAsAliases]
  simp only [hkeys]
  rw [map_settled_foldl_linkShortForm rfl hstart (by simp) (by simp)]
  refine List.map_congr_left fun n hn => ?_
  have hmem : n.key ∈ (detectNames u paragraphs).map NameCount.key := List.mem_map_of_mem hn
  -- A key that was not linked is a multi-word one, which settles itself.
  cases hmulti : isMultiWord n.key with
  | true => simp [settledBy, settlingKey, hmulti]
  | false =>
    rw [settledBy, if_pos]
    simp [hmulti, hmem]

end linking

/-! ## Evidence -/

theorem mem_appendNew {items : List Id} {item x : Id} :
    x ∈ appendNew items item ↔ x ∈ items ∨ x = item := by
  unfold appendNew
  split
  · next hin => exact ⟨.inl, fun h => h.elim id fun heq => heq ▸ hin⟩
  · simp

theorem mem_foldl_appendNew {items new : List Id} {x : Id} :
    x ∈ new.foldl appendNew items ↔ x ∈ items ∨ x ∈ new := by
  induction new generalizing items with
  | nil => simp
  | cons item new ih =>
    rw [List.foldl_cons, ih, mem_appendNew, List.mem_cons, or_assoc]

/-- A name is present in a paragraph, once the short forms in `linked` are linked: it is found
there, or a short form of it is. -/
def PresentBy (names : List NameCount) (linked : List Text) (n : NameCount) (paragraphId : Id) :
    Prop :=
  paragraphId ∈ n.evidence ∨ ∃ short ∈ names, short.key ∈ linked ∧
    longForms (names.map NameCount.key) short.key = [n.key] ∧ paragraphId ∈ short.evidence

section evidence

variable {names : List NameCount} {linked : List Text} {candidates : List CharacterMention}

/-- The candidates are the ones of the names, with the evidence of their linked short forms. -/
structure EvidenceOf (names : List NameCount) (linked : List Text)
    (candidates : List CharacterMention) : Prop where
  keys : candidates.map CharacterMention.normalizedKey = names.map NameCount.key
  evidence : ∀ m ∈ candidates, ∀ n ∈ names, m.normalizedKey = n.key → ∀ paragraphId,
    paragraphId ∈ m.evidenceParagraphIds ↔ PresentBy names linked n paragraphId

theorem exists_candidate {m : CharacterMention} {key : Text} {candidates : List CharacterMention}
    (h : candidates.find? (fun m => decide (m.normalizedKey = key)) = some m) :
    m ∈ candidates ∧ m.normalizedKey = key :=
  ⟨List.mem_of_find?_eq_some h, by simpa using List.find?_some h⟩

theorem presentBy_of_not_isMultiWord {n : NameCount} {paragraphId : Id}
    (h : isMultiWord n.key = false) :
    PresentBy names linked n paragraphId ↔ paragraphId ∈ n.evidence := by
  refine ⟨fun hpresent => ?_, .inl⟩
  rcases hpresent with hown | ⟨short, -, -, hlong, -⟩
  · exact hown
  · have hmem : n.key ∈ longForms (names.map NameCount.key) short.key := by
      rw [hlong]
      exact List.mem_singleton_self _
    rw [(mem_longForms.mp hmem).2.1] at h
    cases h

def CharacterMention.witnessed (m : CharacterMention) : Text × List Id :=
  (m.normalizedKey, m.evidenceParagraphIds)

theorem map_witnessed_link (candidates : List CharacterMention) (shortKey longKey : Text)
    (isSpeaker : Bool) (evidence : List Id) (resolved : Option Id) :
    (updateCandidate shortKey
      (fun m => { m with aliasType := .givenName, resolvedCharacterId := resolved })
      (updateCandidate longKey (fun m => { m with isSpeaker, evidenceParagraphIds := evidence })
        candidates)).map CharacterMention.witnessed
      = candidates.map fun m =>
          (m.normalizedKey, if m.normalizedKey = longKey then evidence else m.evidenceParagraphIds) := by
  rw [updateCandidate, updateCandidate, List.map_map, List.map_map]
  refine List.map_congr_left fun m _ => ?_
  by_cases hlong : m.normalizedKey = longKey
  · by_cases hshort : longKey = shortKey
    · simp [CharacterMention.witnessed, hlong, hshort]
    · simp [CharacterMention.witnessed, hlong, hshort]
  · by_cases hshort : m.normalizedKey = shortKey
    · have hne : ¬ shortKey = longKey := fun heq => hlong (hshort.trans heq)
      simp [CharacterMention.witnessed, hshort, hne]
    · simp [CharacterMention.witnessed, hlong, hshort]

theorem EvidenceOf.linkShortForm (h : EvidenceOf names linked candidates) {short : NameCount}
    (hnodup : (names.map NameCount.key).Nodup) (hshort : short ∈ names)
    (hsingle : isMultiWord short.key = false) :
    EvidenceOf names (short.key :: linked)
      (linkShortForm (names.map NameCount.key) candidates short.key) := by
  have hunique : ∀ n ∈ names, ∀ n' ∈ names, n.key = n'.key → n = n' := fun n hn n' hn' =>
    List.inj_on_of_nodup_map hnodup hn hn'
  -- Only the long form of the new link gains evidence.
  have hpresent : ∀ n paragraphId, PresentBy names (short.key :: linked) n paragraphId ↔
      PresentBy names linked n paragraphId ∨
        longForms (names.map NameCount.key) short.key = [n.key] ∧ paragraphId ∈ short.evidence := by
    intro n paragraphId
    constructor
    · rintro (hown | ⟨short', hshort', hlinked, hlong, hevidence⟩)
      · exact .inl (.inl hown)
      · rcases List.mem_cons.mp hlinked with hkey | hlinked
        · obtain rfl := hunique short' hshort' short hshort hkey
          exact .inr ⟨hlong, hevidence⟩
        · exact .inl (.inr ⟨short', hshort', hlinked, hlong, hevidence⟩)
    · rintro ((hown | ⟨short', hshort', hlinked, hrest⟩) | ⟨hlong, hevidence⟩)
      · exact .inl hown
      · exact .inr ⟨short', hshort', List.mem_cons_of_mem _ hlinked, hrest⟩
      · exact .inr ⟨short, hshort, List.mem_cons_self, hlong, hevidence⟩
  -- Every candidate of a name is found.
  have hfind : ∀ key ∈ names.map NameCount.key, ∃ m,
      candidates.find? (fun m => decide (m.normalizedKey = key)) = some m := by
    intro key hkey
    rw [← Option.isSome_iff_exists, List.find?_isSome]
    rw [← h.keys, List.mem_map] at hkey
    obtain ⟨m, hm, heq⟩ := hkey
    exact ⟨m, hm, decide_eq_true heq⟩
  unfold AudioBook.linkShortForm
  split
  · next longKey hlong =>
    have hmemLong : longKey ∈ names.map NameCount.key :=
      (mem_longForms.mp (hlong ▸ List.mem_singleton_self longKey)).1
    obtain ⟨long, hfindLong⟩ := hfind longKey hmemLong
    obtain ⟨shortMention, hfindShort⟩ := hfind short.key (List.mem_map_of_mem hshort)
    rw [hfindLong, hfindShort]
    obtain ⟨hlongMem, hlongKey⟩ := exists_candidate hfindLong
    obtain ⟨hshortMem, hshortKey⟩ := exists_candidate hfindShort
    have hview := map_witnessed_link candidates short.key longKey
      (long.isSpeaker || shortMention.isSpeaker)
      (shortMention.evidenceParagraphIds.foldl appendNew long.evidenceParagraphIds)
      long.resolvedCharacterId
    constructor
    · have hkeys := congrArg (List.map Prod.fst) hview
      rw [List.map_map, List.map_map] at hkeys
      exact hkeys.trans h.keys
    · intro m' hm' n hn hkey paragraphId
      have hmem := List.mem_map_of_mem (f := CharacterMention.witnessed) hm'
      rw [hview, List.mem_map] at hmem
      obtain ⟨m, hm, heq⟩ := hmem
      simp only [CharacterMention.witnessed, Prod.mk.injEq] at heq
      rw [← heq.2, hpresent, hlong]
      have hkey' : m.normalizedKey = n.key := heq.1.trans hkey
      split
      · next hmlong =>
        rw [mem_foldl_appendNew, h.evidence long hlongMem n hn (by rw [hlongKey, ← hmlong, hkey']),
          h.evidence shortMention hshortMem short hshort hshortKey,
          presentBy_of_not_isMultiWord hsingle]
        simp [← hkey', hmlong]
      · next hmlong =>
        rw [h.evidence m hm n hn hkey']
        simp [← hkey', Ne.symm hmlong]
  · next hother =>
    refine ⟨h.keys, fun m hm n hn hkey paragraphId => ?_⟩
    rw [hpresent, h.evidence m hm n hn hkey]
    refine ⟨.inl, fun hcases => hcases.elim id fun hlong => absurd hlong.1 (hother _)⟩

theorem EvidenceOf.foldl_linkShortForm (h : EvidenceOf names linked candidates)
    (hnodup : (names.map NameCount.key).Nodup) {shorts : List NameCount}
    (hshorts : ∀ short ∈ shorts, short ∈ names ∧ isMultiWord short.key = false) :
    EvidenceOf names ((shorts.map NameCount.key).reverse ++ linked)
      ((shorts.map NameCount.key).foldl (AudioBook.linkShortForm (names.map NameCount.key))
        candidates) := by
  induction shorts generalizing candidates linked with
  | nil => exact h
  | cons short shorts ih =>
    obtain ⟨hmem, hsingle⟩ := hshorts short List.mem_cons_self
    have hstep := h.linkShortForm hnodup hmem hsingle
    have hrest := ih hstep fun short' hshort' => hshorts short' (List.mem_cons_of_mem _ hshort')
    rw [List.map_cons, List.foldl_cons, List.reverse_cons, List.append_assoc,
      List.singleton_append]
    exact hrest

end evidence

/-- A name is present in a paragraph: it is found there, or a short form of it is. -/
def isPresentIn (names : List NameCount) (paragraphId : Id) (n : NameCount) : Bool :=
  decide (paragraphId ∈ n.evidence) || names.any fun short =>
    decide (longForms (names.map NameCount.key) short.key = [n.key]) &&
      decide (paragraphId ∈ short.evidence)

theorem isMultiWord_of_mem_longForms {keys : List Text} {shortKey longKey : Text}
    (h : longKey ∈ longForms keys shortKey) : isMultiWord shortKey = false := by
  obtain ⟨-, -, rfl⟩ := mem_longForms.mp h
  rw [isMultiWord, Bool.eq_false_iff]
  intro hcontains
  have hblank := List.mem_takeWhile_imp (List.contains_iff_mem.mp hcontains)
  simp at hblank

theorem map_presentIn_detectCharacters (paragraphs : List ParagraphInput)
    (index : Text → Option Id) (paragraphId : Id) :
    (presentIn (detectCharacters u paragraphs index) paragraphId).map
        CharacterMention.normalizedKey
      = ((detectNames u paragraphs).filter
          (isPresentIn (detectNames u paragraphs) paragraphId)).map NameCount.key := by
  have hcounts := countsOk_detectNames u paragraphs
  set names := detectNames u paragraphs with hnames
  have hstart : EvidenceOf names [] (names.map (candidateOf index)) := by
    constructor
    · rw [List.map_map]
      rfl
    · intro m hm n hn hkey paragraphId
      obtain ⟨n', hn', rfl⟩ := List.mem_map.mp hm
      obtain rfl := List.inj_on_of_nodup_map hcounts.nodup hn' hn hkey
      simp [candidateOf, PresentBy]
  have hshorts : ∀ short ∈ names.filter (fun n => !isMultiWord n.key),
      short ∈ names ∧ isMultiWord short.key = false := fun short hshort => by
    simpa using List.mem_filter.mp hshort
  have hlinked := hstart.foldl_linkShortForm hcounts.nodup hshorts
  have hcharacters : detectCharacters u paragraphs index =
      ((names.filter fun n => !isMultiWord n.key).map NameCount.key).foldl
        (linkShortForm (names.map NameCount.key)) (names.map (candidateOf index)) := by
    rw [detectCharacters, linkShortFormsAsAliases, ← hnames, hstart.keys, List.filter_map]
    rfl
  rw [← hcharacters] at hlinked
  -- Both sides keep the same keys of one list.
  let present (key : Text) : Bool :=
    names.any fun n => decide (n.key = key) && isPresentIn names paragraphId n
  have hpresentName : ∀ n ∈ names, isPresentIn names paragraphId n = present n.key := by
    intro n hn
    rw [Bool.eq_iff_iff]
    simp only [present, List.any_eq_true, Bool.and_eq_true, decide_eq_true_eq]
    refine ⟨fun h => ⟨n, hn, rfl, h⟩, fun ⟨n', hn', hkey, h⟩ => ?_⟩
    exact List.inj_on_of_nodup_map hcounts.nodup hn' hn hkey ▸ h
  have hpresentMention : ∀ m ∈ detectCharacters u paragraphs index,
      decide (paragraphId ∈ m.evidenceParagraphIds) = present m.normalizedKey := by
    intro m hm
    have hkey : m.normalizedKey ∈ names.map NameCount.key :=
      hlinked.keys ▸ List.mem_map_of_mem hm
    obtain ⟨n, hn, hnkey⟩ := List.mem_map.mp hkey
    rw [← hnkey, ← hpresentName n hn, Bool.eq_iff_iff, decide_eq_true_iff,
      hlinked.evidence m hm n hn hnkey.symm]
    simp only [PresentBy, isPresentIn, Bool.or_eq_true, List.any_eq_true, Bool.and_eq_true,
      decide_eq_true_eq]
    refine or_congr_right (exists_congr fun short => and_congr_right fun hshort => ?_)
    refine ⟨And.right, fun h => ⟨?_, h⟩⟩
    have hsingle := isMultiWord_of_mem_longForms (h.1 ▸ List.mem_singleton_self n.key)
    simpa [hsingle] using ⟨short, ⟨hshort, hsingle⟩, rfl⟩
  calc (presentIn (detectCharacters u paragraphs index) paragraphId).map
        CharacterMention.normalizedKey
      = ((detectCharacters u paragraphs index).map CharacterMention.normalizedKey).filter
          present := by
        rw [presentIn, List.filter_map]
        exact congrArg _ (List.filter_congr hpresentMention)
    _ = (names.map NameCount.key).filter present := by rw [hlinked.keys]
    _ = (names.filter (isPresentIn names paragraphId)).map NameCount.key := by
        rw [List.filter_map]
        exact congrArg _ (List.filter_congr hpresentName).symm

end AudioBook
