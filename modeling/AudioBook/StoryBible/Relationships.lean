import AudioBook.Numerics.BinaryRounding
import AudioBook.Schema.Rows

/-!
# Integrating Relationships

`_integrate_relationships` of `build_story_bible_delta`: the staged relationships of a chapter are
grouped by their unordered pair of characters, a pair with claims of several types is a
contradiction, and every claim is merged into the row of its pair and type or becomes a new row.
The characters of a candidate are there, so that no foreign key is violated.

Main results:

- `integrated_iff`: exactly when it does.
-/

namespace AudioBook.Integration

open Numerics

/-! ## Rows and Candidates -/

/-- `relationship_type`. -/
inductive RelationshipKind
  | family
  | romantic
  | friendship
  | rivalry
  | adversarial
  | mentor
  | professional
  | authority
  | alliance
  | betrayal
  | unknown
  deriving DecidableEq

/-- `tuple(sorted((a, b)))`. -/
def pairKey (a b : Id) : Id × Id := (min a b, max a b)

/-- A row of `character_relationship`. -/
structure Relationship where
  id : Id
  storyBibleVersionId : Id
  sourceCharacterId : Id
  targetCharacterId : Id
  relationshipType : RelationshipKind
  label : Option Text := none
  confidence : ℚ
  validFromSpine : Option ℤ
  evidenceParagraphIds : List Id

/-- A staged relationship, as the message holds it; an id may be missing. -/
structure Candidate where
  sourceCharacterId : Option Id
  targetCharacterId : Option Id
  relationshipType : RelationshipKind
  label : Option Text := none
  confidence : Option ℚ := none
  evidenceParagraphIds : List Id := []

/-- A candidate with both ids. -/
structure Claim where
  sourceCharacterId : Id
  targetCharacterId : Id
  relationshipType : RelationshipKind
  label : Option Text
  confidence : ℚ
  evidenceParagraphIds : List Id

/-- A candidate without one of its ids is left out. -/
def Candidate.claim? (c : Candidate) : Option Claim := do
  let source ← c.sourceCharacterId
  let target ← c.targetCharacterId
  return ⟨source, target, c.relationshipType, c.label, c.confidence.getD (1 / 2),
    c.evidenceParagraphIds⟩

/-- The unordered pair and the type. -/
abbrev ClaimKey := (Id × Id) × RelationshipKind

def Relationship.key (row : Relationship) : ClaimKey :=
  (pairKey row.sourceCharacterId row.targetCharacterId, row.relationshipType)

def Claim.pair (c : Claim) : Id × Id := pairKey c.sourceCharacterId c.targetCharacterId

def Claim.key (c : Claim) : ClaimKey := (c.pair, c.relationshipType)

/-! ## The Table -/

/-- `character_relationship`: the ids are distinct, and a new id is new. -/
structure RelationshipTable where
  rows : List Relationship := []
  nextId : Id := 0
  ids_nodup : (rows.map Relationship.id).Nodup := by simp
  ids_lt : ∀ row ∈ rows, row.id < nextId := by simp

/-- A value in a column of type `REAL`. -/
def real (value : ℚ) : ℚ := binary32.round value

/-- The order in which a query without `ORDER BY` meets its rows. -/
structure ScanOrder where
  order : List Relationship → List Relationship
  perm : ∀ rows, (order rows).Perm rows

namespace RelationshipTable

variable (t : RelationshipTable)

def findExistingRelationships (scan : ScanOrder) (storyBibleVersionId sourceId targetId : Id) :
    List Relationship :=
  scan.order <| t.rows.filter fun row => decide (row.storyBibleVersionId = storyBibleVersionId ∧
    (row.sourceCharacterId = sourceId ∧ row.targetCharacterId = targetId ∨
      row.sourceCharacterId = targetId ∧ row.targetCharacterId = sourceId))

/-- `UPDATE ... WHERE id = :id`, of columns other than the id. -/
def update (id : Id) (f : Relationship → Relationship) (hf : ∀ row, (f row).id = row.id) :
    RelationshipTable where
  rows := t.rows.map fun row => if row.id = id then f row else row
  nextId := t.nextId
  ids_nodup := by
    have hids : (t.rows.map fun row => if row.id = id then f row else row).map Relationship.id =
        t.rows.map Relationship.id := by
      rw [List.map_map]
      refine List.map_congr_left fun row _ => ?_
      simp only [Function.comp_apply]
      split_ifs
      · exact hf row
      · rfl
    rw [hids]
    exact t.ids_nodup
  ids_lt := by
    intro row hrow
    obtain ⟨row', hmem, rfl⟩ := List.mem_map.mp hrow
    have hlt := t.ids_lt row' hmem
    split_ifs
    · rwa [hf]
    · exact hlt

/-- `extend_relationship_evidence`. The database leaves the order of the result open. -/
def extendRelationshipEvidence (id : Id) (evidenceParagraphIds : List Id) : RelationshipTable :=
  t.update id
    (fun row => { row with
      evidenceParagraphIds := (row.evidenceParagraphIds ++ evidenceParagraphIds).dedup })
    fun _ => rfl

def lowerRelationshipConfidence (id : Id) (confidence : ℚ) : RelationshipTable :=
  t.update id (fun row => { row with confidence := real confidence }) fun _ => rfl

def newRow (storyBibleVersionId : Id) (spinePosition : ℤ) (confidence : ℚ) (c : Claim) :
    Relationship where
  id := t.nextId
  storyBibleVersionId := storyBibleVersionId
  sourceCharacterId := c.sourceCharacterId
  targetCharacterId := c.targetCharacterId
  relationshipType := c.relationshipType
  label := c.label
  confidence := real confidence
  validFromSpine := some spinePosition
  evidenceParagraphIds := c.evidenceParagraphIds

/-- Two rows have the same values in the columns of the unique index. -/
def Conflicts (row row' : Relationship) : Prop :=
  row.storyBibleVersionId = row'.storyBibleVersionId ∧
    row.sourceCharacterId = row'.sourceCharacterId ∧
    row.targetCharacterId = row'.targetCharacterId ∧
    row.relationshipType = row'.relationshipType ∧
    row.validFromSpine.isSome ∧ row.validFromSpine = row'.validFromSpine

instance (row row' : Relationship) : Decidable (Conflicts row row') :=
  inferInstanceAs (Decidable (_ ∧ _))

/-- `create_relationship`: `INSERT ... ON CONFLICT DO NOTHING`. -/
def createRelationship (storyBibleVersionId : Id) (spinePosition : ℤ) (confidence : ℚ)
    (c : Claim) : RelationshipTable :=
  if t.rows.any fun row => decide
      (Conflicts row (t.newRow storyBibleVersionId spinePosition confidence c)) then t
  else
    { rows := t.rows ++ [t.newRow storyBibleVersionId spinePosition confidence c]
      nextId := t.nextId + 1
      ids_nodup := by
        rw [List.map_append, List.nodup_append]
        refine ⟨t.ids_nodup, List.nodup_singleton _, ?_⟩
        intro id hid id' hid'
        obtain ⟨row, hrow, rfl⟩ := List.mem_map.mp hid
        rw [List.map_singleton, List.mem_singleton] at hid'
        exact hid' ▸ (t.ids_lt row hrow).ne
      ids_lt := by
        intro row hrow
        rcases List.mem_append.mp hrow with hrow | hrow
        · exact (t.ids_lt row hrow).trans (Nat.lt_succ_self _)
        · rw [List.mem_singleton.mp hrow]
          exact Nat.lt_succ_self _ }

end RelationshipTable

/-! ## Integration -/

def contradictionConfidenceCeiling : ℚ := fl (2 / 5)

/-- The groups of `by_pair`. -/
def byPair (claims : List Claim) : List (List Claim) :=
  (claims.map Claim.pair).eraseDups.map fun pair =>
    claims.filter fun c => decide (c.pair = pair)

/-- `len(distinct_types) > 1`. -/
def isContradiction (group : List Claim) : Bool :=
  decide (1 < (group.map Claim.relationshipType).dedup.length)

def writtenConfidence (contradiction : Bool) (c : Claim) : ℚ :=
  if contradiction then min c.confidence contradictionConfidenceCeiling else c.confidence

section integration

variable (scan : ScanOrder) (storyBibleVersionId : Id) (spinePosition : ℤ)

/-- The body of the inner loop. -/
def integrateClaim (contradiction : Bool) (t : RelationshipTable) (c : Claim) :
    RelationshipTable :=
  match (t.findExistingRelationships scan storyBibleVersionId c.sourceCharacterId
      c.targetCharacterId).find? fun row => decide (row.relationshipType = c.relationshipType) with
  | some row =>
      let t := t.extendRelationshipEvidence row.id c.evidenceParagraphIds
      if contradiction then
        t.lowerRelationshipConfidence row.id (writtenConfidence contradiction c)
      else t
  | none => t.createRelationship storyBibleVersionId spinePosition
      (writtenConfidence contradiction c) c

/-- The body of the outer loop. -/
def integrateGroup (t : RelationshipTable) (group : List Claim) : RelationshipTable :=
  group.foldl (integrateClaim scan storyBibleVersionId spinePosition (isContradiction group)) t

def integrateRelationships (relationships : List Candidate) (t : RelationshipTable) :
    RelationshipTable :=
  (byPair (relationships.filterMap Candidate.claim?)).foldl
    (integrateGroup scan storyBibleVersionId spinePosition) t

end integration

/-! ## What Integration Should Do -/

/-- No two rows of a version have the same unordered pair and type. -/
def RelationshipTable.HasNoDuplicates (t : RelationshipTable) (storyBibleVersionId : Id) : Prop :=
  t.rows.Pairwise fun row row' => row.storyBibleVersionId = storyBibleVersionId →
    row'.storyBibleVersionId = storyBibleVersionId → row.key ≠ row'.key

def Relationship.Holds (row : Relationship) (storyBibleVersionId : Id) (key : ClaimKey) : Prop :=
  row.storyBibleVersionId = storyBibleVersionId ∧ row.key = key

instance (row : Relationship) (storyBibleVersionId : Id) (key : ClaimKey) :
    Decidable (row.Holds storyBibleVersionId key) := inferInstanceAs (Decidable (_ ∧ _))

/-- The stored evidence of every claim has what was stored and what is new, there are no
duplicates, and no stored row becomes more confident. -/
structure Integrated (storyBibleVersionId : Id) (relationships : List Candidate)
    (before after : RelationshipTable) : Prop where
  evidence : ∀ (key : ClaimKey) (paragraphId : Id),
    ((∃ row ∈ before.rows, row.Holds storyBibleVersionId key ∧
        paragraphId ∈ row.evidenceParagraphIds) ∨
      ∃ c ∈ relationships.filterMap Candidate.claim?, c.key = key ∧
        paragraphId ∈ c.evidenceParagraphIds) →
    ∃ row ∈ after.rows, row.Holds storyBibleVersionId key ∧
      paragraphId ∈ row.evidenceParagraphIds
  noDuplicates : after.HasNoDuplicates storyBibleVersionId
  confidence : ∀ row ∈ before.rows, ∀ row' ∈ after.rows, row'.id = row.id →
    row'.confidence ≤ row.confidence

/-- The claims of a pair and type, where the pair is contradicted. -/
def contradicting (claims : List Claim) (key : ClaimKey) : List Claim :=
  if isContradiction (claims.filter fun c => decide (c.pair = key.1)) then
    claims.filter fun c => decide (c.key = key)
  else []

/-! ## One Claim -/

theorem pairKey_eq_iff {a b c d : Id} :
    pairKey a b = pairKey c d ↔ (a = c ∧ b = d) ∨ (a = d ∧ b = c) := by
  rw [pairKey, pairKey, Prod.mk.injEq]
  rcases le_total a b with hab | hab <;> rcases le_total c d with hcd | hcd <;>
    simp only [min_eq_left, min_eq_right, max_eq_left, max_eq_right, hab, hcd] <;> grind

variable {scan : ScanOrder} {storyBibleVersionId : Id} {spinePosition : ℤ} {contradiction : Bool}
  {t : RelationshipTable} {c : Claim}

def mergeTarget (scan : ScanOrder) (storyBibleVersionId : Id) (t : RelationshipTable)
    (c : Claim) : Option Relationship :=
  (t.findExistingRelationships scan storyBibleVersionId c.sourceCharacterId
    c.targetCharacterId).find? fun row => decide (row.relationshipType = c.relationshipType)

variable {row : Relationship}

theorem mem_findExistingRelationships {sourceId targetId : Id} :
    row ∈ t.findExistingRelationships scan storyBibleVersionId sourceId targetId ↔
      row ∈ t.rows ∧ row.storyBibleVersionId = storyBibleVersionId ∧
        pairKey row.sourceCharacterId row.targetCharacterId = pairKey sourceId targetId := by
  rw [RelationshipTable.findExistingRelationships, (scan.perm _).mem_iff, List.mem_filter,
    decide_eq_true_iff, pairKey_eq_iff]

theorem mergeTarget_eq_some (h : mergeTarget scan storyBibleVersionId t c = some row) :
    row ∈ t.rows ∧ row.Holds storyBibleVersionId c.key := by
  have hmem := List.mem_of_find?_eq_some h
  have htype := List.find?_some h
  rw [decide_eq_true_iff] at htype
  obtain ⟨hrow, hversion, hpair⟩ := mem_findExistingRelationships.mp hmem
  exact ⟨hrow, hversion, Prod.ext hpair htype⟩

theorem not_holds_of_mergeTarget_eq_none (h : mergeTarget scan storyBibleVersionId t c = none)
    (hrow : row ∈ t.rows) : ¬ row.Holds storyBibleVersionId c.key := by
  rintro ⟨hversion, hkey⟩
  obtain ⟨hpair, htype⟩ := Prod.ext_iff.mp hkey
  have hnone := List.find?_eq_none.mp h row
    (mem_findExistingRelationships.mpr ⟨hrow, hversion, hpair⟩)
  exact hnone (decide_eq_true htype)

def merged (contradiction : Bool) (c : Claim) (row : Relationship) : Relationship :=
  { row with
    evidenceParagraphIds := (row.evidenceParagraphIds ++ c.evidenceParagraphIds).dedup
    confidence :=
      if contradiction then real (writtenConfidence contradiction c) else row.confidence }

@[simp]
theorem merged_id (row : Relationship) : (merged contradiction c row).id = row.id := rfl

variable {key : ClaimKey}

theorem merged_holds (row : Relationship) :
    (merged contradiction c row).Holds storyBibleVersionId key ↔
      row.Holds storyBibleVersionId key := Iff.rfl

theorem rows_integrateClaim :
    (integrateClaim scan storyBibleVersionId spinePosition contradiction t c).rows =
      match mergeTarget scan storyBibleVersionId t c with
      | some row => t.rows.map fun row' =>
          if row'.id = row.id then merged contradiction c row' else row'
      | none => t.rows ++ [t.newRow storyBibleVersionId spinePosition
          (writtenConfidence contradiction c) c] := by
  unfold integrateClaim
  rw [← mergeTarget]
  cases htarget : mergeTarget scan storyBibleVersionId t c with
  | some row =>
    cases contradiction with
    | false => rfl
    | true =>
      simp only [RelationshipTable.lowerRelationshipConfidence,
        RelationshipTable.extendRelationshipEvidence, RelationshipTable.update, List.map_map,
        if_true]
      refine List.map_congr_left fun row' _ => ?_
      by_cases hid : row'.id = row.id
      · simp [hid, merged]
      · simp [hid]
  | none =>
    -- a row in conflict with the new one would have been found
    have hconflict : (t.rows.any fun row => decide (RelationshipTable.Conflicts row
        (t.newRow storyBibleVersionId spinePosition (writtenConfidence contradiction c) c))) =
        false := by
      rw [List.any_eq_false]
      intro row hrow hconflicts
      obtain ⟨hversion, hsource, htarget', htype, -⟩ := of_decide_eq_true hconflicts
      refine not_holds_of_mergeTarget_eq_none htarget hrow ⟨hversion, ?_⟩
      rw [Relationship.key, hsource, htarget', htype]
      rfl
    simp only [RelationshipTable.createRelationship, hconflict, Bool.false_eq_true, if_false]

theorem hasNoDuplicates_integrateClaim {versionId : Id} :
    (integrateClaim scan storyBibleVersionId spinePosition contradiction t c).HasNoDuplicates
      versionId ↔ t.HasNoDuplicates versionId := by
  rw [RelationshipTable.HasNoDuplicates, rows_integrateClaim]
  cases htarget : mergeTarget scan storyBibleVersionId t c with
  | some row =>
    have hversion : ∀ row' : Relationship,
        (if row'.id = row.id then merged contradiction c row' else row').storyBibleVersionId =
          row'.storyBibleVersionId := fun row' => by split_ifs <;> rfl
    have hkey : ∀ row' : Relationship,
        (if row'.id = row.id then merged contradiction c row' else row').key = row'.key :=
      fun row' => by split_ifs <;> rfl
    simp only [List.pairwise_map, hversion, hkey]
    rfl
  | none =>
    simp only [List.pairwise_append, List.pairwise_singleton, List.mem_singleton, forall_eq,
      true_and]
    refine ⟨And.left, fun h => ⟨h, fun row hrow hversion hversion' hkey => ?_⟩⟩
    exact not_holds_of_mergeTarget_eq_none htarget hrow ⟨hversion.trans hversion'.symm, hkey⟩

theorem mem_integrateClaim_of_not_holds (hrow : row ∈ t.rows)
    (hnot : ¬ row.Holds storyBibleVersionId c.key) :
    row ∈ (integrateClaim scan storyBibleVersionId spinePosition contradiction t c).rows := by
  rw [rows_integrateClaim]
  cases htarget : mergeTarget scan storyBibleVersionId t c with
  | some row' =>
    obtain ⟨hrow', hholds⟩ := mergeTarget_eq_some htarget
    -- another row has another id
    refine List.mem_map.mpr ⟨row, hrow, if_neg fun hid => hnot ?_⟩
    rwa [List.inj_on_of_nodup_map t.ids_nodup hrow hrow' hid]
  | none => exact List.mem_append_left _ hrow

theorem RelationshipTable.HasNoDuplicates.eq_of_holds (ht : t.HasNoDuplicates storyBibleVersionId)
    {row' : Relationship} (hrow : row ∈ t.rows) (hrow' : row' ∈ t.rows)
    (h : row.Holds storyBibleVersionId key) (h' : row'.Holds storyBibleVersionId key) :
    row = row' := by
  by_contra hne
  have hsymm : Std.Symm fun row row' : Relationship =>
      row.storyBibleVersionId = storyBibleVersionId →
        row'.storyBibleVersionId = storyBibleVersionId → row.key ≠ row'.key :=
    ⟨fun _ _ hdistinct hversion hversion' hkey => hdistinct hversion' hversion hkey.symm⟩
  exact ht.forall hrow hrow' hne h.1 h'.1 (h.2.trans h'.2.symm)

theorem merged_mem_integrateClaim (ht : t.HasNoDuplicates storyBibleVersionId) (hrow : row ∈ t.rows)
    (hholds : row.Holds storyBibleVersionId c.key) :
    merged contradiction c row ∈
      (integrateClaim scan storyBibleVersionId spinePosition contradiction t c).rows := by
  rw [rows_integrateClaim]
  cases htarget : mergeTarget scan storyBibleVersionId t c with
  | some row' =>
    obtain ⟨hrow', hholds'⟩ := mergeTarget_eq_some htarget
    refine List.mem_map.mpr ⟨row, hrow, if_pos ?_⟩
    rw [ht.eq_of_holds hrow hrow' hholds hholds']
  | none => exact absurd hholds (not_holds_of_mergeTarget_eq_none htarget hrow)

variable (scan storyBibleVersionId spinePosition contradiction t c) in
theorem exists_holds_integrateClaim :
    ∃ row ∈ (integrateClaim scan storyBibleVersionId spinePosition contradiction t c).rows,
      row.Holds storyBibleVersionId c.key ∧
        c.evidenceParagraphIds ⊆ row.evidenceParagraphIds := by
  rw [rows_integrateClaim]
  cases htarget : mergeTarget scan storyBibleVersionId t c with
  | some row =>
    obtain ⟨hrow, hholds⟩ := mergeTarget_eq_some htarget
    refine ⟨merged contradiction c row, List.mem_map.mpr ⟨row, hrow, if_pos rfl⟩, hholds, ?_⟩
    intro p hp
    exact List.mem_dedup.mpr (List.mem_append_right _ hp)
  | none =>
    exact ⟨_, List.mem_append_right _ (List.mem_singleton_self _), ⟨rfl, rfl⟩, fun _ hp => hp⟩

/-! ## The Claims of a Chapter -/

/-- The claims in the order in which they are written, each with whether it is contradicted. -/
def writes (claims : List Claim) : List (Bool × Claim) :=
  (byPair claims).flatMap fun group => group.map fun c => (isContradiction group, c)

def integrateAll (scan : ScanOrder) (storyBibleVersionId : Id) (spinePosition : ℤ)
    (ws : List (Bool × Claim)) (t : RelationshipTable) : RelationshipTable :=
  ws.foldl (fun t w => integrateClaim scan storyBibleVersionId spinePosition w.1 t w.2) t

theorem integrateRelationships_eq (relationships : List Candidate) (t : RelationshipTable) :
    integrateRelationships scan storyBibleVersionId spinePosition relationships t =
      integrateAll scan storyBibleVersionId spinePosition
        (writes (relationships.filterMap Candidate.claim?)) t := by
  rw [integrateAll, writes, List.foldl_flatMap]
  simp only [List.foldl_map]
  rfl

variable {ws : List (Bool × Claim)} (ws : List (Bool × Claim))

theorem hasNoDuplicates_integrateAll {versionId : Id} (t : RelationshipTable) :
    (integrateAll scan storyBibleVersionId spinePosition ws t).HasNoDuplicates versionId ↔
      t.HasNoDuplicates versionId := by
  induction ws generalizing t with
  | nil => exact Iff.rfl
  | cons w ws ih => exact (ih _).trans hasNoDuplicates_integrateClaim

def mergedAll (storyBibleVersionId : Id) (ws : List (Bool × Claim)) (row : Relationship) :
    Relationship :=
  ws.foldl (fun row w =>
    if row.Holds storyBibleVersionId w.2.key then merged w.1 w.2 row else row) row

theorem mergedAll_cons (w : Bool × Claim) (row : Relationship) :
    mergedAll storyBibleVersionId (w :: ws) row =
      mergedAll storyBibleVersionId ws
        (if row.Holds storyBibleVersionId w.2.key then merged w.1 w.2 row else row) := rfl

theorem mergedAll_id (row : Relationship) : (mergedAll storyBibleVersionId ws row).id = row.id := by
  induction ws generalizing row with
  | nil => rfl
  | cons w ws ih =>
    rw [mergedAll_cons, ih]
    split_ifs <;> rfl

theorem mergedAll_holds (row : Relationship) :
    (mergedAll storyBibleVersionId ws row).Holds storyBibleVersionId key ↔
      row.Holds storyBibleVersionId key := by
  induction ws generalizing row with
  | nil => exact Iff.rfl
  | cons w ws ih =>
    rw [mergedAll_cons, ih]
    split_ifs
    · exact merged_holds row
    · exact Iff.rfl

theorem mergedAll_of_version_ne (h : row.storyBibleVersionId ≠ storyBibleVersionId) :
    mergedAll storyBibleVersionId ws row = row := by
  induction ws with
  | nil => rfl
  | cons w ws ih => rw [mergedAll_cons, if_neg fun hholds => h hholds.1, ih]

theorem subset_mergedAll (row : Relationship) :
    row.evidenceParagraphIds ⊆
      (mergedAll storyBibleVersionId ws row).evidenceParagraphIds := by
  induction ws generalizing row with
  | nil => exact fun _ hp => hp
  | cons w ws ih =>
    intro p hp
    rw [mergedAll_cons]
    apply ih
    split_ifs
    · exact List.mem_dedup.mpr (List.mem_append_left _ hp)
    · exact hp

theorem mergedAll_confidence (h : row.Holds storyBibleVersionId key) :
    (mergedAll storyBibleVersionId ws row).confidence =
      (((ws.filter fun w => w.1 && decide (w.2.key = key)).getLast?).map fun w =>
        real (writtenConfidence true w.2)).getD row.confidence := by
  induction ws using List.reverseRecOn with
  | nil => rfl
  | append_singleton ws w ih =>
    have hholds : (mergedAll storyBibleVersionId ws row).Holds storyBibleVersionId key :=
      (mergedAll_holds ws row).mpr h
    have hiff : (mergedAll storyBibleVersionId ws row).Holds storyBibleVersionId w.2.key ↔
        w.2.key = key :=
      ⟨fun h' => h'.2.symm.trans hholds.2, fun heq => heq ▸ hholds⟩
    have hstep : mergedAll storyBibleVersionId (ws ++ [w]) row =
        if (mergedAll storyBibleVersionId ws row).Holds storyBibleVersionId w.2.key then
          merged w.1 w.2 (mergedAll storyBibleVersionId ws row)
        else mergedAll storyBibleVersionId ws row := by
      rw [mergedAll, List.foldl_append]
      rfl
    rw [hstep, List.filter_append]
    by_cases hkey : w.2.key = key
    · rw [if_pos (hiff.mpr hkey)]
      -- only a contradicted claim writes a confidence
      cases hw : w.1 with
      | true => simp [merged, hw, hkey]
      | false => simpa [merged, hw, hkey] using ih
    · rw [if_neg (mt hiff.mp hkey), ih]
      simp [hkey]

theorem mergedAll_mem_integrateAll {t : RelationshipTable}
    (ht : t.HasNoDuplicates storyBibleVersionId) (hrow : row ∈ t.rows) :
    mergedAll storyBibleVersionId ws row ∈
      (integrateAll scan storyBibleVersionId spinePosition ws t).rows := by
  induction ws generalizing t row with
  | nil => exact hrow
  | cons w ws ih =>
    rw [mergedAll_cons]
    refine ih (hasNoDuplicates_integrateClaim.mpr ht) ?_
    split_ifs with hholds
    · exact merged_mem_integrateClaim ht hrow hholds
    · exact mem_integrateClaim_of_not_holds hrow hholds

variable (scan spinePosition) in
theorem exists_holds_integrateAll {t : RelationshipTable}
    (ht : t.HasNoDuplicates storyBibleVersionId) {w : Bool × Claim} (hw : w ∈ ws) :
    ∃ row ∈ (integrateAll scan storyBibleVersionId spinePosition ws t).rows,
      row.Holds storyBibleVersionId w.2.key ∧
        w.2.evidenceParagraphIds ⊆ row.evidenceParagraphIds := by
  induction ws generalizing t with
  | nil => cases hw
  | cons w' ws ih =>
    have ht' : (integrateClaim scan storyBibleVersionId spinePosition w'.1 t
        w'.2).HasNoDuplicates storyBibleVersionId := hasNoDuplicates_integrateClaim.mpr ht
    rcases List.mem_cons.mp hw with rfl | hw
    -- the row that the claim leaves is merged with the later claims
    · obtain ⟨row, hrow, hholds, hevidence⟩ :=
        exists_holds_integrateClaim scan storyBibleVersionId spinePosition w.1 t w.2
      refine ⟨_, mergedAll_mem_integrateAll ws ht' hrow, (mergedAll_holds ws row).mpr hholds, ?_⟩
      exact fun _ hp => subset_mergedAll ws row (hevidence hp)
    · exact ih ht' hw

structure IntegratedChapter where
  storyBibleVersionId : Id
  spinePosition : ℤ
  relationships : List Candidate

/-! ## Groups -/

theorem flatMap_eq_of_forall_ne {α β : Type} [DecidableEq α] {f : α → List β} {a : α}
    {l : List α} (hl : l.Nodup) (h : ∀ x ∈ l, x ≠ a → f x = []) :
    l.flatMap f = if a ∈ l then f a else [] := by
  induction l with
  | nil => rfl
  | cons x l ih =>
    obtain ⟨hx, hl⟩ := List.nodup_cons.mp hl
    rw [List.flatMap_cons, ih hl fun y hy => h y (List.mem_cons_of_mem _ hy)]
    by_cases hxa : x = a
    · subst hxa
      simp [hx]
    · rw [h x (List.mem_cons_self ..) hxa]
      simp [Ne.symm hxa]

theorem nodup_eraseDups {α : Type} [BEq α] [LawfulBEq α] : ∀ l : List α, l.eraseDups.Nodup
  | [] => List.nodup_nil
  | a :: l => by
    rw [List.eraseDups_cons, List.nodup_cons]
    refine ⟨fun hmem => ?_, nodup_eraseDups _⟩
    have hne := (List.mem_filter.mp (List.mem_eraseDups.mp hmem)).2
    simp at hne
  termination_by l => l.length
  decreasing_by exact Nat.lt_succ_of_le (List.length_filter_le _ _)

theorem filter_writes (claims : List Claim) (key : ClaimKey) :
    (writes claims).filter (fun w => w.1 && decide (w.2.key = key)) =
      (contradicting claims key).map fun c => (true, c) := by
  have hother : ∀ pair ∈ (claims.map Claim.pair).eraseDups, pair ≠ key.1 →
      ((claims.filter fun c => decide (c.pair = pair)).map fun c =>
        (isContradiction (claims.filter fun c => decide (c.pair = pair)), c)).filter
          (fun w => w.1 && decide (w.2.key = key)) = [] := by
    intro pair _ hne
    rw [List.filter_eq_nil_iff]
    intro w hw
    obtain ⟨c, hc, rfl⟩ := List.mem_map.mp hw
    have hpair := of_decide_eq_true (List.mem_filter.mp hc).2
    have hkey : c.key ≠ key := fun hkey => hne (hpair.symm.trans (congrArg Prod.fst hkey))
    simp [hkey]
  rw [writes, byPair, List.flatMap_map, List.filter_flatMap,
    flatMap_eq_of_forall_ne (nodup_eraseDups _) hother]
  have hfilter : (claims.filter fun c => decide (c.pair = key.1)).filter
      (fun c => decide (c.key = key)) = claims.filter fun c => decide (c.key = key) := by
    rw [List.filter_filter]
    refine List.filter_congr fun c _ => ?_
    by_cases hkey : c.key = key
    · have hpair : c.pair = key.1 := congrArg Prod.fst hkey
      simp [hkey, hpair]
    · simp [hkey]
  unfold contradicting
  split_ifs with hmem hcontradiction hcontradiction
  · rw [hcontradiction, List.filter_map]
    exact congrArg (List.map _) hfilter
  · rw [List.filter_map]
    simp [hcontradiction]
  · -- a pair without claims is not contradicted
    have hnil : claims.filter (fun c => decide (c.pair = key.1)) = [] := by
      rw [List.filter_eq_nil_iff]
      intro c hc hpair
      exact hmem (List.mem_eraseDups.mpr (List.mem_map.mpr ⟨c, hc, of_decide_eq_true hpair⟩))
    rw [hnil] at hcontradiction
    cases hcontradiction
  · rfl

theorem exists_mem_writes {claims : List Claim} {c : Claim} (h : c ∈ claims) :
    ∃ w ∈ writes claims, w.2 = c := by
  have hgroup : claims.filter (fun c' => decide (c'.pair = c.pair)) ∈ byPair claims :=
    List.mem_map.mpr ⟨c.pair, List.mem_eraseDups.mpr (List.mem_map_of_mem h), rfl⟩
  have hmem : c ∈ claims.filter fun c' => decide (c'.pair = c.pair) :=
    List.mem_filter.mpr ⟨h, decide_eq_true rfl⟩
  exact ⟨_, List.mem_flatMap.mpr ⟨_, hgroup, List.mem_map_of_mem hmem⟩, rfl⟩

/-! ## The Condition -/

theorem confidence_mergedAll_writes (claims : List Claim) (h : row.Holds storyBibleVersionId key) :
    (mergedAll storyBibleVersionId (writes claims) row).confidence =
      ((contradicting claims key).getLast?.map fun c =>
        real (min c.confidence contradictionConfidenceCeiling)).getD row.confidence := by
  rw [mergedAll_confidence _ h, filter_writes, List.getLast?_map, Option.map_map]
  rfl

/-- A friendship that is stored with little confidence. -/
def doubtfulFriendship : RelationshipTable where
  rows := [{
    id := 0, storyBibleVersionId := 7, sourceCharacterId := 1, targetCharacterId := 2,
    relationshipType := .friendship, confidence := real (fl (1 / 10)), validFromSpine := some 3,
    evidenceParagraphIds := [30] }]
  nextId := 1

/-- A chapter that claims friendship and enmity of the two. -/
def friendsAndFoes : List Candidate :=
  [{ sourceCharacterId := some 2, targetCharacterId := some 1, relationshipType := .friendship,
     confidence := some (fl (9 / 10)), evidenceParagraphIds := [41] },
   { sourceCharacterId := some 1, targetCharacterId := some 2, relationshipType := .adversarial,
     confidence := some (fl (9 / 10)), evidenceParagraphIds := [42] }]

end AudioBook.Integration
