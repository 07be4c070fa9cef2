import AudioBook.Pagination.Keyset
import AudioBook.Schema.Rows
import Mathlib.Data.List.Sort

/-!
# Listing Jobs

`listJobs` and `listJobsAcrossTenants` of `jobs.service.ts`: a page of the jobs that match a
query, ordered by `created_at` or `completed_at` and then by id, and the cursor of the next page.

The database keeps timestamps in microseconds and orders `NULL` after every timestamp, while a
cursor holds milliseconds, with the epoch in place of `NULL`. `listedOnce_iff_resumable` says at
which rows a page may end, so that following the cursors lists every matching job once.
-/

namespace AudioBook

open Keyset

/-- `QUEUE_NAMES`. -/
inductive QueueName
  | parse
  | ai
  | gpu
  | audio
  | maintenance
  deriving DecidableEq, Repr

/-- A row of `processing_job`, as far as the listing reads it. Timestamps are in microseconds
since the epoch. -/
structure JobRow where
  id : ℕ
  tenantId : Id
  bookId : Option Id := none
  type : JobType
  status : JobStatus := .created
  queue : QueueName
  relatedResourceId : Id
  createdAt : ℤ
  completedAt : Option ℤ := none
  deriving DecidableEq

/-- `SORT_FIELDS`. -/
inductive SortField
  | createdAt
  | completedAt
  deriving DecidableEq, Repr

inductive SortDirection
  | asc
  | desc
  deriving DecidableEq, Repr

/-- A page size that `parseLimit` accepts. -/
structure PageLimit where
  val : ℕ
  pos : 1 ≤ val
  le_max : val ≤ 100

/-- The error of a query parameter that does not parse. -/
structure ValidationError where
  code : String
  message : String
  field : String
  issue : String
  deriving DecidableEq, Repr

/-- The query parameters of a listing. Times are in milliseconds, as a `Date` holds them. -/
structure ListJobsQuery where
  bookId : Option Id := none
  type : List JobType := []
  status : List JobStatus := []
  relatedResourceId : Option Id := none
  createdAfter : Option ℤ := none
  createdBefore : Option ℤ := none
  sort : Option (SortField × Option SortDirection) := none
  limit : Option ℤ := none

def parseLimit : Option ℤ → Except ValidationError PageLimit
  | none => .ok ⟨25, by omega, by omega⟩
  | some value =>
      if h : 1 ≤ value ∧ value ≤ 100 then .ok ⟨value.toNat, by omega, by omega⟩
      else .error {
        code := "VALIDATION_FAILED"
        message := "limit must be an integer between 1 and 100."
        field := "limit"
        issue := "out_of_range" }

def parseSort : Option (SortField × Option SortDirection) → SortField × SortDirection
  | none => (.createdAt, .desc)
  | some (field, direction) => (field, direction.getD .desc)

/-- The `where` of a listing. -/
structure JobWhere where
  tenantId : Option Id := none
  queue : Option QueueName := none
  bookId : Option Id := none
  relatedResourceId : Option Id := none
  status : List JobStatus := []
  type : List JobType := []
  createdAfter : Option ℤ := none
  createdBefore : Option ℤ := none

def buildJobWhere (base : JobWhere) (query : ListJobsQuery) : JobWhere :=
  { base with
    bookId := query.bookId
    relatedResourceId := query.relatedResourceId
    status := query.status
    type := query.type
    createdAfter := query.createdAfter
    createdBefore := query.createdBefore }

/-- A filter of the `where` that is absent or holds. -/
def passes {α : Type} (filter : Option α) (test : α → Bool) : Bool :=
  match filter with
  | none => true
  | some value => test value

/-- The row matches the `where`. -/
def JobWhere.matches (filter : JobWhere) (row : JobRow) : Bool :=
  passes filter.tenantId (fun id => decide (row.tenantId = id)) &&
  passes filter.queue (fun queue => decide (row.queue = queue)) &&
  passes filter.bookId (fun id => decide (row.bookId = some id)) &&
  passes filter.relatedResourceId (fun id => decide (row.relatedResourceId = id)) &&
  (filter.status.isEmpty || decide (row.status ∈ filter.status)) &&
  (filter.type.isEmpty || decide (row.type ∈ filter.type)) &&
  passes filter.createdAfter (fun time => decide (time * 1000 < row.createdAt)) &&
  passes filter.createdBefore (fun time => decide (row.createdAt < time * 1000))

/-- The value of a row in the column that a listing is ordered by. -/
def SortField.value : SortField → JobRow → Option ℤ
  | .createdAt, row => some row.createdAt
  | .completedAt, row => row.completedAt

/-- The order of a nullable timestamp column, ascending: `NULL` comes after every timestamp. -/
def ValueBefore : Option ℤ → Option ℤ → Prop
  | some a, some b => a < b
  | some _, none => True
  | none, _ => False

instance : DecidableRel ValueBefore
  | some a, some b => inferInstanceAs (Decidable (a < b))
  | some _, none => isTrue trivial
  | none, some _ => isFalse id
  | none, none => isFalse id

/-- The strict order of `(column, id)`, ascending. -/
def RowBefore (field : SortField) (a b : JobRow) : Prop :=
  ValueBefore (field.value a) (field.value b) ∨ (field.value a = field.value b ∧ a.id < b.id)

instance (field : SortField) : DecidableRel (RowBefore field) :=
  fun _ _ => inferInstanceAs (Decidable (_ ∨ _))

/-- The strict order of a listing: `ORDER BY column direction, id direction`. -/
def Listed (field : SortField) : SortDirection → JobRow → JobRow → Prop
  | .asc, a, b => RowBefore field a b
  | .desc, a, b => RowBefore field b a

instance (field : SortField) (direction : SortDirection) : DecidableRel (Listed field direction) :=
  match direction with
  | .asc => fun a b => inferInstanceAs (Decidable (RowBefore field a b))
  | .desc => fun a b => inferInstanceAs (Decidable (RowBefore field b a))

/-- `ORDER BY column direction, id direction`. -/
def orderBy (field : SortField) (direction : SortDirection) (rows : List JobRow) : List JobRow :=
  rows.insertionSort fun a b => ¬ Listed field direction b a

/-- The content of a cursor: a time in milliseconds and an id. -/
structure CursorPayload where
  v : ℤ
  id : ℕ
  deriving DecidableEq

/-- A timestamp as a `Date` holds it: cut to milliseconds. -/
def toMillis (time : ℤ) : ℤ := time / 1000

/-- The cursor that `pageOfJobs` encodes for the last row of a page. -/
def cursorOf (field : SortField) (row : JobRow) : CursorPayload where
  v := ((field.value row).map toMillis).getD 0
  id := row.id

/-- `cursorBoundary`. A comparison with `NULL` does not hold. -/
def cursorBoundary (field : SortField) (direction : SortDirection) (cursor : CursorPayload)
    (row : JobRow) : Bool :=
  match field.value row, direction with
  | none, _ => false
  | some value, .asc =>
      decide (cursor.v * 1000 < value ∨ (value = cursor.v * 1000 ∧ cursor.id < row.id))
  | some value, .desc =>
      decide (value < cursor.v * 1000 ∨ (value = cursor.v * 1000 ∧ row.id < cursor.id))

/-- `pageOfJobs`, of up to `limit + 1` rows. -/
def pageOfJobs (rows : List JobRow) (limit : PageLimit) (field : SortField) :
    Page JobRow CursorPayload :=
  let hasMore := limit.val < rows.length
  let page := if hasMore then rows.take limit.val else rows
  { data := page
    nextCursor := if hasMore then page.getLast?.map (cursorOf field) else none }

structure JobListing where
  filter : JobWhere
  limit : PageLimit
  field : SortField
  direction : SortDirection

def JobListing.matching (listing : JobListing) (rows : List JobRow) : List JobRow :=
  orderBy listing.field listing.direction (rows.filter listing.filter.matches)

def JobListing.page (listing : JobListing) (rows : List JobRow) (cursor : Option CursorPayload) :
    Page JobRow CursorPayload :=
  let selected := rows.filter fun row =>
    listing.filter.matches row &&
      passes cursor fun c => cursorBoundary listing.field listing.direction c row
  pageOfJobs ((orderBy listing.field listing.direction selected).take (listing.limit.val + 1))
    listing.limit listing.field

def listJobs (rows : List JobRow) (tenantId : Id) (query : ListJobsQuery)
    (cursor : Option CursorPayload) : Except ValidationError (Page JobRow CursorPayload) := do
  let limit ← parseLimit query.limit
  let (field, direction) := parseSort query.sort
  let filter := buildJobWhere { tenantId := some tenantId } query
  return JobListing.page ⟨filter, limit, field, direction⟩ rows cursor

def listJobsAcrossTenants (rows : List JobRow) (tenantId : Option Id) (queue : Option QueueName)
    (query : ListJobsQuery) (cursor : Option CursorPayload) :
    Except ValidationError (Page JobRow CursorPayload) := do
  let limit ← parseLimit query.limit
  let (field, direction) := parseSort query.sort
  let filter := { buildJobWhere {} query with tenantId := tenantId, queue := queue }
  return JobListing.page ⟨filter, limit, field, direction⟩ rows cursor

/-! ## The Order of a Listing -/

section order

variable {field : SortField} {direction : SortDirection}

theorem ValueBefore.trans {a b c : Option ℤ} (hab : ValueBefore a b) (hbc : ValueBefore b c) :
    ValueBefore a c := by
  rcases a with _ | a <;> rcases b with _ | b <;> rcases c with _ | c <;>
    simp only [ValueBefore] at *
  omega

theorem ValueBefore.trichotomy (a b : Option ℤ) : ValueBefore a b ∨ a = b ∨ ValueBefore b a := by
  rcases a with _ | a <;> rcases b with _ | b <;> simp only [ValueBefore, Option.some.injEq]
  · simp
  · simp
  · simp
  · omega

theorem RowBefore.trans {a b c : JobRow} (hab : RowBefore field a b) (hbc : RowBefore field b c) :
    RowBefore field a c := by
  unfold RowBefore at *
  rcases hab with hab | ⟨hab, hidab⟩ <;> rcases hbc with hbc | ⟨hbc, hidbc⟩
  · exact Or.inl (hab.trans hbc)
  · exact Or.inl (hbc ▸ hab)
  · exact Or.inl (hab ▸ hbc)
  · exact Or.inr ⟨hab.trans hbc, Nat.lt_trans hidab hidbc⟩

theorem RowBefore.irrefl (a : JobRow) : ¬ RowBefore field a a := by
  unfold RowBefore
  rintro (h | ⟨-, h⟩)
  · revert h
    cases field.value a with
    | none => exact id
    | some time => exact Int.lt_irrefl time
  · exact Nat.lt_irrefl _ h

theorem RowBefore.trichotomy (field : SortField) (a b : JobRow) :
    RowBefore field a b ∨ (field.value a = field.value b ∧ a.id = b.id) ∨ RowBefore field b a := by
  unfold RowBefore
  rcases ValueBefore.trichotomy (field.value a) (field.value b) with h | h | h
  · exact Or.inl (Or.inl h)
  · rcases Nat.lt_trichotomy a.id b.id with hid | hid | hid
    · exact Or.inl (Or.inr ⟨h, hid⟩)
    · exact Or.inr (Or.inl ⟨h, hid⟩)
    · exact Or.inr (Or.inr (Or.inr ⟨h.symm, hid⟩))
  · exact Or.inr (Or.inr (Or.inl h))

theorem RowBefore.congr_left {a b c : JobRow} (hvalue : field.value a = field.value b)
    (hid : a.id = b.id) : RowBefore field a c ↔ RowBefore field b c := by
  unfold RowBefore
  rw [hvalue, hid]

theorem RowBefore.congr_right {a b c : JobRow} (hvalue : field.value b = field.value c)
    (hid : b.id = c.id) : RowBefore field a b ↔ RowBefore field a c := by
  unfold RowBefore
  rw [hvalue, hid]

instance : IsTrans JobRow (Listed field direction) where
  trans a b c hab hbc := by
    cases direction with
    | asc => exact RowBefore.trans hab hbc
    | desc => exact RowBefore.trans hbc hab

instance : Std.Irrefl (Listed field direction) where
  irrefl a := by
    cases direction with
    | asc => exact RowBefore.irrefl a
    | desc => exact RowBefore.irrefl a

theorem Listed.trichotomy (field : SortField) (direction : SortDirection) (a b : JobRow) :
    Listed field direction a b ∨ (field.value a = field.value b ∧ a.id = b.id) ∨
      Listed field direction b a := by
  cases direction with
  | asc => exact RowBefore.trichotomy field a b
  | desc =>
      rcases RowBefore.trichotomy field a b with h | h | h
      · exact Or.inr (Or.inr h)
      · exact Or.inr (Or.inl h)
      · exact Or.inl h

instance : Std.Antisymm (Listed field direction) where
  antisymm a _ hab hba := absurd (trans_of _ hab hba) (Std.Irrefl.irrefl a)

theorem Listed.asymm {a b : JobRow} (h : Listed field direction a b) :
    ¬ Listed field direction b a :=
  fun h' => Std.Irrefl.irrefl a (trans_of _ h h')

/-- `a` does not come after `b`. -/
instance : Std.Total fun a b => ¬ Listed field direction b a where
  total a b := by
    by_contra hnot
    rw [not_or, not_not, not_not] at hnot
    exact hnot.1.asymm hnot.2

instance : IsTrans JobRow fun a b => ¬ Listed field direction b a where
  trans a b c hab hbc hca := by
    rcases Listed.trichotomy field direction b c with h | ⟨hv, hid⟩ | h
    · exact hab (trans_of _ h hca)
    · apply hab
      cases direction with
      | asc => exact (RowBefore.congr_left hv hid).mpr hca
      | desc => exact (RowBefore.congr_right hv hid).mpr hca
    · exact hbc h

theorem orderBy_perm (field : SortField) (direction : SortDirection) (rows : List JobRow) :
    (orderBy field direction rows).Perm rows :=
  List.perm_insertionSort _ rows

theorem orderBy_pairwise {rows : List JobRow} (hids : (rows.map JobRow.id).Nodup) :
    (orderBy field direction rows).Pairwise (Listed field direction) := by
  have hle : (orderBy field direction rows).Pairwise fun a b => ¬ Listed field direction b a :=
    List.pairwise_insertionSort _ rows
  have hne : (orderBy field direction rows).Pairwise fun a b => a.id ≠ b.id := by
    have hperm := (orderBy_perm field direction rows).map JobRow.id
    have hnodup := hperm.nodup_iff.mpr hids
    rwa [List.Nodup, List.pairwise_map] at hnodup
  refine (hle.and hne).imp fun h => ?_
  rcases Listed.trichotomy field direction _ _ with hlt | heq | hgt
  · exact hlt
  · exact absurd heq.2 h.2
  · exact absurd hgt h.1

theorem orderBy_filter {rows : List JobRow} (hids : (rows.map JobRow.id).Nodup)
    (p : JobRow → Bool) :
    orderBy field direction (rows.filter p) = (orderBy field direction rows).filter p := by
  have hids' : ((rows.filter p).map JobRow.id).Nodup :=
    hids.sublist (List.filter_sublist.map JobRow.id)
  refine List.Pairwise.eq_of_mem_iff (r := Listed field direction) (orderBy_pairwise hids')
    ((orderBy_pairwise hids).filter p) fun row => ?_
  rw [(orderBy_perm field direction _).mem_iff, List.mem_filter, List.mem_filter,
    (orderBy_perm field direction _).mem_iff]

end order

/-! ## The Pages of a Listing -/

section page

theorem pageOfJobs_take (selected : List JobRow) (limit : PageLimit) (field : SortField) :
    pageOfJobs (selected.take (limit.val + 1)) limit field
      = paginate limit.val (cursorOf field) selected :=
  paginate_take limit.val (cursorOf field) selected

theorem page_eq_fetch (listing : JobListing) {rows : List JobRow}
    (hids : (rows.map JobRow.id).Nodup) (cursor : Option CursorPayload) :
    listing.page rows cursor
      = fetch listing.limit.val (cursorOf listing.field)
          (cursorBoundary listing.field listing.direction) (listing.matching rows) cursor := by
  unfold JobListing.page fetch JobListing.matching
  simp only [pageOfJobs_take]
  cases cursor with
  | none =>
      simp only [passes, Bool.and_true]
      rfl
  | some cursor =>
      simp only [passes]
      rw [← List.filter_filter, List.filter_comm, orderBy_filter]
      · rfl
      · exact hids.sublist (List.filter_sublist.map JobRow.id)

theorem toMillis_bounds (time : ℤ) :
    toMillis time * 1000 ≤ time ∧ time < toMillis time * 1000 + 1000 := by
  unfold toMillis
  omega

section values

variable {field : SortField} {a b row : JobRow} {cursor : CursorPayload} {time time' : ℤ}

theorem rowBefore_some_iff (ha : field.value a = some time) (hb : field.value b = some time') :
    RowBefore field a b ↔ time < time' ∨ (time = time' ∧ a.id < b.id) := by
  unfold RowBefore
  rw [ha, hb, Option.some.injEq]
  rfl

theorem eq_none_of_rowBefore (ha : field.value a = none) (h : RowBefore field a b) :
    field.value b = none := by
  rcases h with h | h
  · rw [ha] at h
    exact absurd h id
  · rw [← h.1, ha]

theorem cursorBoundary_none (h : field.value row = none) (direction : SortDirection) :
    cursorBoundary field direction cursor row = false := by
  unfold cursorBoundary
  rw [h]

theorem cursorBoundary_asc_iff (h : field.value row = some time) :
    cursorBoundary field .asc cursor row = true ↔
      cursor.v * 1000 < time ∨ (time = cursor.v * 1000 ∧ cursor.id < row.id) := by
  unfold cursorBoundary
  rw [h]
  exact decide_eq_true_iff

theorem cursorBoundary_desc_iff (h : field.value row = some time) :
    cursorBoundary field .desc cursor row = true ↔
      time < cursor.v * 1000 ∨ (time = cursor.v * 1000 ∧ row.id < cursor.id) := by
  unfold cursorBoundary
  rw [h]
  exact decide_eq_true_iff

theorem exists_of_cursorBoundary {direction : SortDirection}
    (h : cursorBoundary field direction cursor row = true) :
    ∃ time, field.value row = some time := by
  cases hvalue : field.value row with
  | none =>
      rw [cursorBoundary_none hvalue] at h
      exact absurd h Bool.false_ne_true
  | some time => exact ⟨time, rfl⟩

end values

variable {field : SortField} {row : JobRow}

theorem cursorOf_bounds {time : ℤ} (h : field.value row = some time) :
    (cursorOf field row).v * 1000 ≤ time ∧ time < (cursorOf field row).v * 1000 + 1000 := by
  unfold cursorOf
  rw [h]
  exact toMillis_bounds time

theorem cursorBoundary_trans (field : SortField) (direction : SortDirection) (a b row : JobRow)
    (hab : cursorBoundary field direction (cursorOf field a) b = true)
    (hlisted : Listed field direction b row)
    (hb : cursorBoundary field direction (cursorOf field b) row = true) :
    cursorBoundary field direction (cursorOf field a) row = true := by
  obtain ⟨time, hrow⟩ := exists_of_cursorBoundary hb
  obtain ⟨time', hvalue⟩ := exists_of_cursorBoundary hab
  have hcut := cursorOf_bounds hvalue
  cases direction with
  | asc =>
      rw [cursorBoundary_asc_iff hvalue] at hab
      rw [cursorBoundary_asc_iff hrow]
      have h := (rowBefore_some_iff hvalue hrow).mp hlisted
      omega
  | desc =>
      rw [cursorBoundary_desc_iff hvalue] at hab
      rw [cursorBoundary_desc_iff hrow]
      have h := (rowBefore_some_iff hrow hvalue).mp hlisted
      omega

/-- A page may end at `row`, with the rows `rest` after it: the cursor of `row` stands for its
place in the listing. -/
def Resumable (field : SortField) : SortDirection → JobRow → List JobRow → Prop
  | .asc, row, rest =>
      (∃ millis, field.value row = some (millis * 1000)) ∧
        ∀ later ∈ rest, field.value later ≠ none
  | .desc, row, rest =>
      ∀ later ∈ rest, ∃ time, field.value later = some time ∧
        (time < (cursorOf field row).v * 1000 ∨
          (time = (cursorOf field row).v * 1000 ∧ later.id < row.id))

theorem boundary_asc_iff {front rest : List JobRow} (hne : rest ≠ [])
    (hfront : ∀ x ∈ front, Listed field .asc x row) (hrest : ∀ x ∈ rest, Listed field .asc row x) :
    ((∀ x ∈ front ++ [row], cursorBoundary field .asc (cursorOf field row) x = false) ∧
        ∀ x ∈ rest, cursorBoundary field .asc (cursorOf field row) x = true) ↔
      Resumable field .asc row rest := by
  have hid : (cursorOf field row).id = row.id := rfl
  constructor
  · rintro ⟨hnone, hall⟩
    have hsome : ∀ x ∈ rest, field.value x ≠ none := by
      intro x hx hvalue
      obtain ⟨time, htime⟩ := exists_of_cursorBoundary (hall x hx)
      rw [hvalue] at htime
      cases htime
    refine ⟨?_, hsome⟩
    obtain ⟨x, hx⟩ := List.exists_mem_of_ne_nil rest hne
    cases hvalue : field.value row with
    | none => exact absurd (eq_none_of_rowBefore hvalue (hrest x hx)) (hsome x hx)
    | some time =>
        have hcut := cursorOf_bounds hvalue
        have h := hnone row (by simp)
        rw [← Bool.not_eq_true, cursorBoundary_asc_iff hvalue] at h
        exact ⟨(cursorOf field row).v, congrArg some (by omega)⟩
  · rintro ⟨⟨millis, hmillis⟩, hsome⟩
    have hcut := cursorOf_bounds hmillis
    constructor
    · intro x hx
      cases hvalue : field.value x with
      | none => exact cursorBoundary_none hvalue _
      | some time =>
          rw [← Bool.not_eq_true, cursorBoundary_asc_iff hvalue, hid]
          rcases List.mem_append.mp hx with hx | hx
          · have h := (rowBefore_some_iff hvalue hmillis).mp (hfront x hx)
            omega
          · rw [List.mem_singleton.mp hx] at hvalue ⊢
            rw [hmillis, Option.some.injEq] at hvalue
            omega
    · intro x hx
      obtain ⟨time, hvalue⟩ := Option.ne_none_iff_exists'.mp (hsome x hx)
      rw [cursorBoundary_asc_iff hvalue, hid]
      have h := (rowBefore_some_iff hmillis hvalue).mp (hrest x hx)
      omega

theorem cursorBoundary_desc_front {front : List JobRow} {x : JobRow}
    (hfront : ∀ x ∈ front, Listed field .desc x row) (hx : x ∈ front ++ [row]) :
    cursorBoundary field .desc (cursorOf field row) x = false := by
  have hid : (cursorOf field row).id = row.id := rfl
  cases hvalue : field.value x with
  | none => exact cursorBoundary_none hvalue _
  | some time =>
      rw [← Bool.not_eq_true, cursorBoundary_desc_iff hvalue, hid]
      rcases List.mem_append.mp hx with hx | hx
      · -- descending, `NULL` comes first, so the value of `row` is not `NULL`
        cases hrow : field.value row with
        | none =>
            have h := eq_none_of_rowBefore hrow (hfront x hx)
            rw [hvalue] at h
            cases h
        | some time' =>
            have hcut := cursorOf_bounds hrow
            have h := (rowBefore_some_iff hrow hvalue).mp (hfront x hx)
            omega
      · have hcut := cursorOf_bounds hvalue
        rw [List.mem_singleton.mp hx] at hcut ⊢
        omega

theorem boundary_desc_iff {front rest : List JobRow}
    (hfront : ∀ x ∈ front, Listed field .desc x row) :
    ((∀ x ∈ front ++ [row], cursorBoundary field .desc (cursorOf field row) x = false) ∧
        ∀ x ∈ rest, cursorBoundary field .desc (cursorOf field row) x = true) ↔
      Resumable field .desc row rest := by
  constructor
  · rintro ⟨-, hall⟩ x hx
    obtain ⟨time, hvalue⟩ := exists_of_cursorBoundary (hall x hx)
    exact ⟨time, hvalue, (cursorBoundary_desc_iff hvalue).mp (hall x hx)⟩
  · intro hres
    refine ⟨fun x hx => cursorBoundary_desc_front hfront hx, fun x hx => ?_⟩
    obtain ⟨time, hvalue, h⟩ := hres x hx
    exact (cursorBoundary_desc_iff hvalue).mpr h

theorem filter_cursorBoundary_iff {direction : SortDirection} {front rest : List JobRow}
    (hne : rest ≠ []) (hsorted : (front ++ row :: rest).Pairwise (Listed field direction)) :
    (front ++ row :: rest).filter (cursorBoundary field direction (cursorOf field row)) = rest ↔
      Resumable field direction row rest := by
  have hparts := List.pairwise_append.mp hsorted
  have hrow := List.pairwise_cons.mp hparts.2.1
  have hdisjoint : ∀ x ∈ front ++ [row], x ∉ rest := by
    intro x hx hx'
    rcases List.mem_append.mp hx with hx | hx
    · exact Std.Irrefl.irrefl x (hparts.2.2 x hx x (List.mem_cons_of_mem _ hx'))
    · rw [List.mem_singleton.mp hx] at hx'
      exact Std.Irrefl.irrefl row (hrow.1 row hx')
  have hsplit : front ++ row :: rest = (front ++ [row]) ++ rest := by simp
  rw [hsplit, filter_append_eq_right_iff hdisjoint]
  have hfront : ∀ x ∈ front, Listed field direction x row :=
    fun x hx => hparts.2.2 x hx row List.mem_cons_self
  cases direction with
  | asc => exact boundary_asc_iff hne hfront hrow.1
  | desc => exact boundary_desc_iff hfront

end page

/-- Following `next_cursor` from the first page until it is null lists every matching job once,
in the order of the listing. -/
def ListedOnce (listing : JobListing) (rows : List JobRow) : Prop :=
  ∃ fuel, follow (listing.page rows) fuel none = some (listing.matching rows)

/-- Every matching job is listed once exactly when every page that is not the last one ends where
it may end. -/
theorem listedOnce_iff_resumable (listing : JobListing) {rows : List JobRow}
    (hids : (rows.map JobRow.id).Nodup) :
    ListedOnce listing rows ↔
      ∀ front row rest, listing.matching rows = front ++ row :: rest → rest ≠ [] →
        listing.limit.val ∣ front.length + 1 →
        Resumable listing.field listing.direction row rest := by
  have hids' : ((rows.filter listing.filter.matches).map JobRow.id).Nodup :=
    hids.sublist (List.filter_sublist.map JobRow.id)
  have hsorted : (listing.matching rows).Pairwise (Listed listing.field listing.direction) :=
    orderBy_pairwise hids'
  have hpage : listing.page rows = fetch listing.limit.val (cursorOf listing.field)
      (cursorBoundary listing.field listing.direction) (listing.matching rows) :=
    funext fun cursor => page_eq_fetch listing hids cursor
  unfold ListedOnce
  rw [hpage, follow_eq_some_iff_exact (Listed listing.field listing.direction) listing.limit.pos
    hsorted (cursorBoundary_trans listing.field listing.direction)]
  unfold Exact
  constructor
  · intro hexact front row rest hrows hne hdvd
    rw [← filter_cursorBoundary_iff hne (hrows ▸ hsorted), ← hrows]
    exact hexact front row rest hrows hne hdvd
  · intro hres front row rest hrows hne hdvd
    rw [hrows]
    exact (filter_cursorBoundary_iff hne (hrows ▸ hsorted)).mpr (hres front row rest hrows hne hdvd)

/-- A job that has not finished, created at a whole second. -/
def runningJob (id : ℕ) : JobRow where
  id := id
  tenantId := 1
  type := .generateTtsChunk
  status := .running
  queue := .gpu
  relatedResourceId := id
  createdAt := id * 1000000

def latestFirst (field : SortField) : JobListing where
  filter := { tenantId := some 1 }
  limit := ⟨1, by omega, by omega⟩
  field := field
  direction := .desc

/-- Two running jobs by creation time: the page with the second job may end. -/
theorem runningJobs_listedOnce :
    ListedOnce (latestFirst .createdAt) [runningJob 1, runningJob 2] := by
  refine (listedOnce_iff_resumable (latestFirst .createdAt) (by decide)).mpr ?_
  intro front row rest hrows hne _
  have hmatching : (latestFirst .createdAt).matching [runningJob 1, runningJob 2]
      = [runningJob 2, runningJob 1] := by decide +kernel
  rw [hmatching] at hrows
  cases front with
  | nil =>
      obtain ⟨rfl, rfl⟩ := List.cons.inj hrows
      intro later hlater
      rw [List.mem_singleton.mp hlater]
      exact ⟨1000000, rfl, Or.inl (by decide)⟩
  | cons _ front =>
      -- the other job is the last one
      obtain ⟨-, hrows⟩ := List.cons.inj hrows
      cases front with
      | nil => exact absurd (List.cons.inj hrows).2.symm hne
      | cons _ front => exact absurd hrows (by simp)

/-- Listings need not be complete: by completion time, the page after the first running job is
empty. -/
theorem not_forall_listedOnce :
    ¬ ∀ (listing : JobListing) (rows : List JobRow), (rows.map JobRow.id).Nodup →
      ListedOnce listing rows := by
  intro hall
  obtain ⟨fuel, hfuel⟩ :=
    hall (latestFirst .completedAt) [runningJob 1, runningJob 2] (by decide)
  have hmatching : (latestFirst .completedAt).matching [runningJob 1, runningJob 2]
      = [runningJob 2, runningJob 1] := by decide +kernel
  have hfirst : (latestFirst .completedAt).page [runningJob 1, runningJob 2] none
      = ⟨[runningJob 2], some ⟨0, 2⟩⟩ := by rfl
  have hsecond : (latestFirst .completedAt).page [runningJob 1, runningJob 2] (some ⟨0, 2⟩)
      = ⟨[], none⟩ := by rfl
  rw [hmatching] at hfuel
  match fuel with
  | 0 => cases hfuel
  | 1 =>
      rw [follow, hfirst] at hfuel
      cases hfuel
  | fuel + 2 =>
      rw [follow, hfirst] at hfuel
      simp only [follow, hsecond] at hfuel
      exact absurd hfuel (by decide)

end AudioBook
