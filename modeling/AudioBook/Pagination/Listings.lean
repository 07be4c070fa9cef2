import AudioBook.Analysis.Characters
import AudioBook.Jobs.Listing
import AudioBook.Pagination.NullsLast
import Mathlib.Data.Int.ConditionallyCompleteOrder
import Mathlib.Data.Prod.Lex
import Mathlib.Order.ConditionallyCompleteLattice.Basic
import Mathlib.Order.WithBot

/-!
# Listing Scenes, Characters and Audio Chunks

`listScenes`, `listCharacters` and `listAudioChunks`: a page of the matching rows, and the cursor of
the next page, which holds the sort value and the id of the last row. Scenes and chunks are ordered
by an index that rows may share, and compared with the index of the cursor alone. Characters are
ordered by a rank, nulls last, and then by id; after a ranked character the cursor asks of those
without a rank that their ids are greater.

- `ReadsEachOnce`: following `next_cursor` from the first page gives every matching row once.
- `listings_readEachOnce_iff`: when the three endpoints do.
-/

namespace AudioBook

open Keyset

/-! ## Rows and Queries -/

/-- A row of `scene`, as far as the listing reads it. -/
structure SceneRow where
  id : ℕ
  bookId : Id
  bookVersionId : Id
  chapterId : Id
  orderIndex : ℤ
  deriving DecidableEq

/-- A row of `audio_chunk`, as far as the listing reads it. -/
structure AudioChunkRow where
  id : ℕ
  bookId : Id
  chapterId : Id
  characterId : Option Id := none
  sequenceIndex : ℤ
  isCurrent : Bool := true
  status : AudioChunkStatus
  deriving DecidableEq

/-- The query parameters of `listScenes`, but for the cursor. -/
structure ListScenesQuery where
  chapterId : Option Id := none
  limit : Option ℤ := none

/-- The query parameters of `listCharacters`, but for the cursor. -/
structure ListCharactersQuery where
  status : Option CharacterStatus := none
  speaking : Option Bool := none
  includeSentinels : Bool := true
  limit : Option ℤ := none

/-- The query parameters of `listAudioChunks`, but for the cursor. -/
structure ListAudioChunksQuery where
  chapterId : Option Id := none
  status : Option AudioChunkStatus := none
  characterId : Option Id := none
  limit : Option ℤ := none

/-- The scene is of the current version of the book, if it has one, and matches the query. -/
def ListScenesQuery.matches (query : ListScenesQuery) (book : Book) (row : SceneRow) : Bool :=
  decide (row.bookId = book.id) &&
  passes book.currentBookVersionId (fun id => decide (row.bookVersionId = id)) &&
  passes query.chapterId (fun id => decide (row.chapterId = id))

def ListCharactersQuery.matches (query : ListCharactersQuery) (book : Book) (row : CharacterRecord) :
    Bool :=
  decide (row.bookId = book.id) &&
  passes query.status (fun status => decide (row.status = status)) &&
  passes query.speaking (fun speaking => decide (row.speaking = speaking)) &&
  (query.includeSentinels || !row.isSentinel)

def ListAudioChunksQuery.matches (query : ListAudioChunksQuery) (book : Book)
    (row : AudioChunkRow) : Bool :=
  decide (row.bookId = book.id) && row.isCurrent &&
  passes query.chapterId (fun id => decide (row.chapterId = id)) &&
  passes query.status (fun status => decide (row.status = status)) &&
  passes query.characterId (fun id => decide (row.characterId = some id))

/-! ## Endpoints -/

variable {α : Type}

/-- `paginate`, of up to `limit + 1` rows. -/
def pageOf (cursorOf : α → CursorPayload) (limit : PageLimit) (rows : List α) :
    Page α CursorPayload :=
  let hasMore := limit.val < rows.length
  let page := if hasMore then rows.take limit.val else rows
  { data := page
    nextCursor := if hasMore then page.getLast?.map cursorOf else none }

/-- The page of a listing that is ordered by an index, and compares the index with the cursor. -/
def pageByIndex (index : α → ℤ) (id : α → ℕ) (scan : KeyOrder index) (isMatch : α → Bool)
    (limit : PageLimit) (rows : List α) (cursor : Option CursorPayload) : Page α CursorPayload :=
  let selected := rows.filter fun row =>
    isMatch row && passes cursor fun c => decide (c.v < index row)
  let ordered := scan.order (cursor.map CursorPayload.v) selected
  pageOf (fun row => ⟨index row, id row⟩) limit (ordered.take (limit.val + 1))

def listScenes (scan : KeyOrder SceneRow.orderIndex) (rows : List SceneRow) (book : Book)
    (query : ListScenesQuery) (cursor : Option CursorPayload) :
    Except ValidationError (Page SceneRow CursorPayload) := do
  let limit ← parseLimit query.limit
  return pageByIndex SceneRow.orderIndex SceneRow.id scan (query.matches book) limit rows cursor

def listAudioChunks (scan : KeyOrder AudioChunkRow.sequenceIndex) (rows : List AudioChunkRow)
    (book : Book) (query : ListAudioChunksQuery) (cursor : Option CursorPayload) :
    Except ValidationError (Page AudioChunkRow CursorPayload) := do
  let limit ← parseLimit query.limit
  return pageByIndex AudioChunkRow.sequenceIndex AudioChunkRow.id scan (query.matches book) limit
    rows cursor

def maxSafeInteger : ℤ := 9007199254740991

/-- The greatest number in an `INTEGER` column. -/
def maxInteger : ℤ := 2147483647

/-- The order of `listCharacters`: by rank, with nulls last, and then by id. -/
def characterKey (c : CharacterRecord) : WithTop ℤ ×ₗ ℕ := toLex (c.importanceRank, c.id)

/-- The cursor that `listCharacters` encodes for the last row of a page. -/
def characterCursor (c : CharacterRecord) : CursorPayload where
  v := c.importanceRank.getD maxSafeInteger
  id := c.id

/-- The rows that `listCharacters` asks for after a cursor. -/
def isAfterCharacter (cursor : CursorPayload) (row : CharacterRecord) : Bool :=
  match row.importanceRank with
  | some rank => decide (cursor.v < rank ∨ (rank = cursor.v ∧ cursor.id < row.id))
  | none => decide (cursor.id < row.id)

/-- `ORDER BY importance_rank ASC NULLS LAST, id ASC`. -/
def orderCharacters (rows : List CharacterRecord) : List CharacterRecord :=
  rows.insertionSort fun a b => characterKey a ≤ characterKey b

/-- The table of characters: its ids are unique, and a rank is an `INTEGER`. -/
structure CharacterTable where
  rows : List CharacterRecord
  ids : (rows.map CharacterRecord.id).Nodup
  ranks : ∀ c ∈ rows, ∀ rank ∈ c.importanceRank, rank ≤ maxInteger

def listCharacters (table : CharacterTable) (book : Book) (query : ListCharactersQuery)
    (cursor : Option CursorPayload) : Except ValidationError (Page CharacterRecord CursorPayload) := do
  let limit ← parseLimit query.limit
  let selected := table.rows.filter fun row =>
    query.matches book row && passes cursor fun c => isAfterCharacter c row
  return pageOf characterCursor limit ((orderCharacters selected).take (limit.val + 1))

/-- Following `next_cursor` from the first page until it is null gives every matching row once. -/
def ReadsEachOnce
    (endpoint : Option CursorPayload → Except ValidationError (Page α CursorPayload))
    (isMatch : List α) : Prop :=
  ∃ page, (∀ cursor, endpoint cursor = .ok (page cursor)) ∧
    ∃ fuel out, follow page fuel none = some out ∧ out.Perm isMatch

/-! ## Pages -/

theorem pageOf_take (cursorOf : α → CursorPayload) (limit : PageLimit) (selected : List α) :
    pageOf cursorOf limit (selected.take (limit.val + 1)) =
      paginate limit.val cursorOf selected :=
  paginate_take limit.val cursorOf selected

theorem readsEachOnce_iff
    {endpoint : Option CursorPayload → Except ValidationError (Page α CursorPayload)}
    {page : Option CursorPayload → Page α CursorPayload}
    (h : ∀ cursor, endpoint cursor = .ok (page cursor)) (isMatch : List α) :
    ReadsEachOnce endpoint isMatch ↔
      ∃ fuel out, follow page fuel none = some out ∧ out.Perm isMatch := by
  constructor
  · rintro ⟨page', hpage, hread⟩
    have heq : page' = page := funext fun cursor =>
      Except.ok.inj ((hpage cursor).symm.trans (h cursor))
    rwa [heq] at hread
  · intro hread
    exact ⟨page, h, hread⟩

theorem follow_pageByIndex {index : α → ℤ} {id : α → ℕ} (scan : KeyOrder index)
    (isMatch : α → Bool) (limit : PageLimit) (rows : List α) (fuel : ℕ) :
    follow (pageByIndex index id scan isMatch limit rows) fuel none =
      follow (fetchAfter limit.val scan (rows.filter isMatch)) fuel none := by
  refine (follow_map (φ := CursorPayload.v) (fun cursor => ?_) fuel none).symm
  unfold pageByIndex fetchAfter
  dsimp only
  rw [pageOf_take]
  have hselect : select (isAfter index) (rows.filter isMatch) (cursor.map CursorPayload.v) =
      rows.filter fun row => isMatch row && passes cursor fun c => decide (c.v < index row) := by
    cases cursor with
    | none =>
        simp only [passes, Bool.and_true]
        rfl
    | some cursor =>
        show (rows.filter isMatch).filter _ = _
        rw [List.filter_filter]
        exact List.filter_congr fun row _ => Bool.and_comm _ _
  rw [hselect]
  unfold paginate
  congr 1
  split
  · rw [Option.map_map]
    rfl
  · rfl

theorem pageByIndex_readsEachOnce_iff {index : α → ℤ} {id : α → ℕ} (scan : KeyOrder index)
    (isMatch : α → Bool) (limit : PageLimit) (rows : List α) :
    (∃ fuel out, follow (pageByIndex index id scan isMatch limit rows) fuel none = some out ∧
        out.Perm (rows.filter isMatch)) ↔
      Untied limit.val (sortedKeys index (rows.filter isMatch)) := by
  simp only [follow_pageByIndex]
  exact follow_fetchAfter_perm_iff limit.pos

/-! ## Characters -/

section characters

variable {a b c : CharacterRecord}

theorem characterKey_lt_iff_of_some {rank : ℤ} (ha : a.importanceRank = some rank) :
    characterKey a < characterKey b ↔ match b.importanceRank with
      | some rank' => rank < rank' ∨ (rank = rank' ∧ a.id < b.id)
      | none => True := by
  unfold characterKey
  rw [Prod.Lex.toLex_lt_toLex, ha]
  cases hb : b.importanceRank with
  | none =>
      refine iff_of_true (.inl ?_) trivial
      exact WithTop.coe_lt_top rank
  | some rank' =>
      show ((rank : WithTop ℤ) < (rank' : WithTop ℤ) ∨
        ((rank : WithTop ℤ) = (rank' : WithTop ℤ) ∧ _)) ↔ _
      rw [WithTop.coe_lt_coe, WithTop.coe_inj]

theorem characterKey_lt_iff_of_none (ha : a.importanceRank = none) (hb : b.importanceRank = none) :
    characterKey a < characterKey b ↔ a.id < b.id := by
  unfold characterKey
  rw [Prod.Lex.toLex_lt_toLex, ha, hb]
  exact (or_iff_right (lt_irrefl (⊤ : WithTop ℤ))).trans (and_iff_right rfl)

theorem nodup_characterKey (table : CharacterTable) : (table.rows.map characterKey).Nodup := by
  refine List.Nodup.of_map (fun key => (ofLex key).2) ?_
  rw [List.map_map]
  exact table.ids

def matchingCharacters (table : CharacterTable) (isMatch : CharacterRecord → Bool) :
    List CharacterRecord :=
  orderCharacters (table.rows.filter isMatch)

def rankedCharacters (table : CharacterTable) (isMatch : CharacterRecord → Bool) :
    List CharacterRecord :=
  (matchingCharacters table isMatch).filter fun c => c.importanceRank.isSome

def unrankedCharacters (table : CharacterTable) (isMatch : CharacterRecord → Bool) :
    List CharacterRecord :=
  (matchingCharacters table isMatch).filter fun c => c.importanceRank.isNone

variable (table : CharacterTable) (isMatch : CharacterRecord → Bool)

theorem nodup_characterKey_filter : ((table.rows.filter isMatch).map characterKey).Nodup :=
  (nodup_characterKey table).sublist (List.filter_sublist.map characterKey)

theorem matchingCharacters_perm :
    (matchingCharacters table isMatch).Perm (table.rows.filter isMatch) :=
  List.perm_insertionSort _ _

theorem matchingCharacters_pairwise :
    (matchingCharacters table isMatch).Pairwise fun a b => characterKey a < characterKey b := by
  have hle : (matchingCharacters table isMatch).Pairwise
      fun a b => characterKey a ≤ characterKey b := pairwise_sort characterKey _
  have hne : (matchingCharacters table isMatch).Pairwise
      fun a b => characterKey a ≠ characterKey b := by
    have hnodup := ((matchingCharacters_perm table isMatch).map characterKey).nodup_iff.mpr
      (nodup_characterKey_filter table isMatch)
    rwa [List.Nodup, List.pairwise_map] at hnodup
  exact (hle.and hne).imp fun h => lt_of_le_of_ne h.1 h.2

theorem ranked_append_unranked :
    rankedCharacters table isMatch ++ unrankedCharacters table isMatch =
      matchingCharacters table isMatch := by
  unfold rankedCharacters unrankedCharacters
  refine List.Perm.eq_of_pairwise (fun a b _ _ hab hba => absurd hab (lt_asymm hba)) ?_
    (matchingCharacters_pairwise table isMatch) ?_
  · have hsorted := matchingCharacters_pairwise table isMatch
    refine List.pairwise_append.mpr ⟨hsorted.filter _, hsorted.filter _, fun a ha b hb => ?_⟩
    obtain ⟨rank, hrank⟩ := Option.isSome_iff_exists.mp (List.mem_filter.mp ha).2
    rw [characterKey_lt_iff_of_some hrank]
    rw [Option.isNone_iff_eq_none.mp (List.mem_filter.mp hb).2]
    trivial
  · have hperm := List.filter_append_perm (fun c : CharacterRecord => c.importanceRank.isSome)
      (matchingCharacters table isMatch)
    convert hperm using 3
    exact funext fun c => (Option.not_isSome c.importanceRank).symm

theorem mem_ranked (hc : c ∈ rankedCharacters table isMatch) :
    ∃ rank, c.importanceRank = some rank ∧ rank ≤ maxInteger := by
  obtain ⟨hmatch, hsome⟩ := List.mem_filter.mp hc
  obtain ⟨rank, hrank⟩ := Option.isSome_iff_exists.mp hsome
  have hrow := List.mem_of_mem_filter ((matchingCharacters_perm table isMatch).subset hmatch)
  exact ⟨rank, hrank, table.ranks c hrow rank hrank⟩

theorem mem_unranked (hc : c ∈ unrankedCharacters table isMatch) : c.importanceRank = none :=
  Option.isNone_iff_eq_none.mp (List.mem_filter.mp hc).2

theorem unranked_pairwise :
    (unrankedCharacters table isMatch).Pairwise fun a b => a.id < b.id := by
  have hsorted := (matchingCharacters_pairwise table isMatch).filter
    fun c => c.importanceRank.isNone
  refine List.Pairwise.imp_of_mem (fun ha hb hab => ?_) hsorted
  exact (characterKey_lt_iff_of_none (mem_unranked table isMatch ha)
    (mem_unranked table isMatch hb)).mp hab

theorem isAfterCharacter_of_none {cursor : CursorPayload} (hc : c.importanceRank = none) :
    isAfterCharacter cursor c = decide (cursor.id < c.id) := by
  unfold isAfterCharacter
  rw [hc]

theorem isAfterCharacter_ranked {rank rank' : ℤ} (ha : a.importanceRank = some rank)
    (hb : b.importanceRank = some rank') :
    isAfterCharacter (characterCursor a) b = decide (characterKey a < characterKey b) := by
  unfold isAfterCharacter
  rw [hb]
  refine decide_eq_decide.mpr ?_
  rw [characterKey_lt_iff_of_some ha, hb]
  unfold characterCursor
  rw [ha]
  exact or_congr_right (and_congr_left fun _ => eq_comm)

theorem nullsLast_characters :
    NullsLast characterCursor isAfterCharacter (rankedCharacters table isMatch)
      (unrankedCharacters table isMatch) where
  ranked_of_ranked front row rest hsplit := by
    have hsorted : (rankedCharacters table isMatch).Pairwise
        fun a b => characterKey a < characterKey b :=
      (matchingCharacters_pairwise table isMatch).filter _
    have hall : ∀ x ∈ front ++ row :: rest, ∃ rank, x.importanceRank = some rank := by
      intro x hx
      rw [← hsplit] at hx
      obtain ⟨rank, hrank, -⟩ := mem_ranked table isMatch hx
      exact ⟨rank, hrank⟩
    obtain ⟨rank, hrow⟩ := hall row (by simp)
    have hselects : ∀ x ∈ front ++ row :: rest, isAfterCharacter (characterCursor row) x =
        decide (characterKey row < characterKey x) := by
      intro x hx
      obtain ⟨rank', hrank'⟩ := hall x hx
      exact isAfterCharacter_ranked hrow hrank'
    rw [hsplit] at hsorted ⊢
    obtain ⟨-, hrest, hfront⟩ := List.pairwise_append.mp hsorted
    rw [List.filter_congr hselects, List.filter_append, List.filter_cons_of_neg (by simp)]
    have hnone : front.filter (fun x => decide (characterKey row < characterKey x)) = [] := by
      refine List.filter_eq_nil_iff.mpr fun x hx => ?_
      rw [decide_eq_true_eq]
      exact lt_asymm (hfront x hx row List.mem_cons_self)
    have hself : rest.filter (fun x => decide (characterKey row < characterKey x)) = rest :=
      List.filter_eq_self.mpr fun x hx => decide_eq_true ((List.pairwise_cons.mp hrest).1 x hx)
    rw [hnone, hself, List.nil_append]
  unranked_of_ranked row _ := by
    refine filter_suffix_of_pairwise ?_
    refine List.Pairwise.imp_of_mem (fun ha hb hab => ?_) (unranked_pairwise table isMatch)
    rw [isAfterCharacter_of_none (mem_unranked table isMatch ha),
      isAfterCharacter_of_none (mem_unranked table isMatch hb), decide_eq_true_eq,
      decide_eq_true_eq]
    exact fun hlt => Nat.lt_trans hlt hab
  ranked_of_unranked row hrow := by
    refine List.filter_eq_nil_iff.mpr fun x hx => ?_
    obtain ⟨rank, hrank, hle⟩ := mem_ranked table isMatch hx
    unfold isAfterCharacter characterCursor
    rw [hrank, mem_unranked table isMatch hrow, decide_eq_true_eq]
    unfold maxInteger at hle
    unfold maxSafeInteger
    simp only [Option.getD_none]
    omega
  unranked_of_unranked front row rest hsplit := by
    have hsorted := unranked_pairwise table isMatch
    have hselects : ∀ x ∈ front ++ row :: rest, isAfterCharacter (characterCursor row) x =
        decide (row.id < x.id) := by
      intro x hx
      rw [← hsplit] at hx
      exact isAfterCharacter_of_none (mem_unranked table isMatch hx)
    rw [hsplit] at hsorted ⊢
    obtain ⟨-, hrest, hfront⟩ := List.pairwise_append.mp hsorted
    rw [List.filter_congr hselects, List.filter_append, List.filter_cons_of_neg (by simp)]
    have hnone : front.filter (fun x => decide (row.id < x.id)) = [] := by
      refine List.filter_eq_nil_iff.mpr fun x hx => ?_
      rw [decide_eq_true_eq]
      exact Nat.lt_asymm (hfront x hx row List.mem_cons_self)
    have hself : rest.filter (fun x => decide (row.id < x.id)) = rest :=
      List.filter_eq_self.mpr fun x hx => decide_eq_true ((List.pairwise_cons.mp hrest).1 x hx)
    rw [hnone, hself, List.nil_append]

theorem pageOf_characters (limit : PageLimit) (cursor : Option CursorPayload) :
    pageOf characterCursor limit ((orderCharacters (table.rows.filter fun row =>
        isMatch row && passes cursor fun c => isAfterCharacter c row)).take (limit.val + 1)) =
      fetch limit.val characterCursor isAfterCharacter
        (rankedCharacters table isMatch ++ unrankedCharacters table isMatch) cursor := by
  rw [pageOf_take, ranked_append_unranked]
  unfold fetch
  congr 1
  cases cursor with
  | none =>
      simp only [passes, Bool.and_true]
      rfl
  | some cursor =>
      show orderCharacters _ = (matchingCharacters table isMatch).filter _
      unfold matchingCharacters orderCharacters
      rw [filter_sort (nodup_characterKey_filter table isMatch), List.filter_filter]
      congr 1
      exact List.filter_congr fun row _ => Bool.and_comm _ _

end characters

/-- The pages of `limit` characters leave none out: there is none without a rank, or less than a
page of those with one. Otherwise every character without a rank has a greater id than the last
one that ends a page of ranked ones; and if this is the last ranked one and not on the first page,
one has a greater id than the end of the page before, too. -/
def CharacterPagesResume (limit : ℕ) (ranked unranked : List CharacterRecord) : Prop :=
  unranked = [] ∨ ranked.length < limit ∨
    ((∀ last, ranked[limit * (ranked.length / limit) - 1]? = some last →
        ∀ c ∈ unranked, last.id < c.id) ∧
      (limit < ranked.length → limit ∣ ranked.length → ∀ before,
        ranked[ranked.length - limit - 1]? = some before → ∃ c ∈ unranked, before.id < c.id))

theorem resumes_characters_iff (table : CharacterTable) (isMatch : CharacterRecord → Bool)
    (limit : ℕ) :
    NullsLast.Resumes limit characterCursor isAfterCharacter (unrankedCharacters table isMatch)
        (rankedCharacters table isMatch) (unrankedCharacters table isMatch) ↔
      CharacterPagesResume limit (rankedCharacters table isMatch)
        (unrankedCharacters table isMatch) := by
  have hselects : ∀ row : CharacterRecord, ∀ c ∈ unrankedCharacters table isMatch,
      (isAfterCharacter (characterCursor row) c = true ↔ row.id < c.id) := by
    intro row c hc
    rw [isAfterCharacter_of_none (mem_unranked table isMatch hc), decide_eq_true_eq]
    rfl
  have hself : ∀ row : CharacterRecord, (unrankedCharacters table isMatch).filter
      (isAfterCharacter (characterCursor row)) = unrankedCharacters table isMatch ↔
        ∀ c ∈ unrankedCharacters table isMatch, row.id < c.id := by
    intro row
    rw [List.filter_eq_self]
    exact forall₂_congr (hselects row)
  have hsome : ∀ row : CharacterRecord, (unrankedCharacters table isMatch).filter
      (isAfterCharacter (characterCursor row)) ≠ [] ↔
        ∃ c ∈ unrankedCharacters table isMatch, row.id < c.id := by
    intro row
    rw [Ne, List.filter_eq_nil_iff]
    push Not
    exact exists_congr fun c => and_congr_right fun hc => hselects row c hc
  unfold NullsLast.Resumes CharacterPagesResume
  simp only [hself, hsome, and_true]
  by_cases hnil : unrankedCharacters table isMatch = []
  · simp [hnil]
  · simp only [hnil, false_or, ne_eq, not_false_eq_true, implies_true, true_and]
    by_cases hlt : (rankedCharacters table isMatch).length < limit
    · simp [hlt]
    · simp [hlt, Nat.not_lt.mp hlt]

/-! ## The Endpoints -/

section endpoints

variable (book : Book) {limit : PageLimit}

theorem listScenes_readsEachOnce_iff (scan : KeyOrder SceneRow.orderIndex) (rows : List SceneRow)
    (query : ListScenesQuery) (hlimit : parseLimit query.limit = .ok limit) :
    ReadsEachOnce (listScenes scan rows book query) (rows.filter (query.matches book)) ↔
      Untied limit.val (sortedKeys SceneRow.orderIndex (rows.filter (query.matches book))) := by
  have hpage : ∀ cursor, listScenes scan rows book query cursor =
      .ok (pageByIndex SceneRow.orderIndex SceneRow.id scan (query.matches book) limit rows
        cursor) := by
    intro cursor
    unfold listScenes
    rw [hlimit]
    rfl
  rw [readsEachOnce_iff hpage]
  exact pageByIndex_readsEachOnce_iff scan _ limit rows

theorem listAudioChunks_readsEachOnce_iff (scan : KeyOrder AudioChunkRow.sequenceIndex)
    (rows : List AudioChunkRow) (query : ListAudioChunksQuery)
    (hlimit : parseLimit query.limit = .ok limit) :
    ReadsEachOnce (listAudioChunks scan rows book query) (rows.filter (query.matches book)) ↔
      Untied limit.val
        (sortedKeys AudioChunkRow.sequenceIndex (rows.filter (query.matches book))) := by
  have hpage : ∀ cursor, listAudioChunks scan rows book query cursor =
      .ok (pageByIndex AudioChunkRow.sequenceIndex AudioChunkRow.id scan (query.matches book)
        limit rows cursor) := by
    intro cursor
    unfold listAudioChunks
    rw [hlimit]
    rfl
  rw [readsEachOnce_iff hpage]
  exact pageByIndex_readsEachOnce_iff scan _ limit rows

theorem listCharacters_readsEachOnce_iff (table : CharacterTable) (query : ListCharactersQuery)
    (hlimit : parseLimit query.limit = .ok limit) :
    ReadsEachOnce (listCharacters table book query) (table.rows.filter (query.matches book)) ↔
      CharacterPagesResume limit.val (rankedCharacters table (query.matches book))
        (unrankedCharacters table (query.matches book)) := by
  have hpage : ∀ cursor, listCharacters table book query cursor =
      .ok (fetch limit.val characterCursor isAfterCharacter
        (rankedCharacters table (query.matches book) ++
          unrankedCharacters table (query.matches book)) cursor) := by
    intro cursor
    unfold listCharacters
    rw [hlimit, ← pageOf_characters]
    rfl
  rw [readsEachOnce_iff hpage, ← resumes_characters_iff,
    ← (nullsLast_characters table (query.matches book)).follow_perm_iff limit.pos]
  have hperm := matchingCharacters_perm table (query.matches book)
  rw [← ranked_append_unranked] at hperm
  constructor
  · rintro ⟨fuel, out, hout, houtperm⟩
    exact ⟨fuel, out, hout, houtperm.trans hperm.symm⟩
  · rintro ⟨fuel, out, hout, houtperm⟩
    exact ⟨fuel, out, hout, houtperm.trans hperm⟩

end endpoints

def sceneAt (id : ℕ) (orderIndex : ℤ) : SceneRow where
  id := id
  bookId := 1
  bookVersionId := 1
  chapterId := 1
  orderIndex := orderIndex

def chunkAt (id : ℕ) (sequenceIndex : ℤ) : AudioChunkRow where
  id := id
  bookId := 1
  chapterId := 1
  sequenceIndex := sequenceIndex
  status := .validated

/-- A character with a rank, and one of smaller id without. -/
def rankedAndUnranked : CharacterTable where
  rows := [{ id := 5, bookId := 1, importanceRank := some 1 }, { id := 3, bookId := 1 }]
  ids := by decide
  ranks := by decide

theorem one_le_hundred : 1 ≤ 100 := by omega

def oneRow : PageLimit := ⟨1, Nat.one_pos, one_le_hundred⟩

end AudioBook
