import AudioBook.Concurrent.Contract
import AudioBook.Schema.Rows
import AudioBook.Relational.Table

/-!
# Edits Under `If-Match`

`updateBook` and `updateCurrentUser`: read the row, compare `If-Match` with its entity tag, and
write the row. The tag is made from `row_version`, which every edit increments. The write does not
ask for the version again, so another edit can come between the read and the write.

- `update`: the two endpoints, which are `updateBook` and `updateCurrentUser`.
- `OneWinner`: every edit was of a version that its `If-Match` names, and of the edits that name
  one version at most one was applied.
- `oneWinner_of_unraced`: so it is where every edit meets the version that it read.
-/

namespace AudioBook.Editing

open Relational Concurrent

/-! ## Entity Tags -/

/-- An entity tag: the digest of an id and a `row_version`, here what it is the digest of. -/
structure ETag where
  id : Id
  rowVersion : ℕ
  deriving DecidableEq

/-- One of the values of an `If-Match` header, which are separated by commas. -/
inductive Candidate
  | any
  | tag (value : ETag)
  | other
  deriving DecidableEq

/-- `assertIfMatch` accepts the header, which may be absent. -/
def isAccepted (ifMatch : Option (List Candidate)) (current : ETag) : Bool :=
  match ifMatch with
  | none => true
  | some candidates => candidates.contains .any || candidates.contains (.tag current)

/-! ## Endpoints -/

/-- What an endpoint answers instead of its result. -/
inductive EditError
  | notFound (message : String)
  | conflict (code message : String)
  | recordNotFound
  | other
  deriving DecidableEq

structure EditRequest (β : Type) where
  tenantId : Id
  id : Id
  ifMatch : Option (List Candidate) := none
  body : β

/-- History: an edit, with the version that it was applied to. -/
structure Edit where
  id : Id
  ifMatch : Option (List Candidate)
  appliedTo : ℕ
  deriving DecidableEq

/-- What the requests share: the rows of a table, and the edits that were applied to them. -/
structure EditStore (ρ : Type) where
  rows : List ρ := []
  applied : List Edit := []

inductive EditAccess
  | find (id : Id)
  | update (id : Id) (rowVersion : ℕ)
  deriving DecidableEq

structure Endpoint (ρ β : Type) where
  id : ρ → Id
  tenantId : ρ → Id
  rowVersion : ρ → ℕ
  isFound : ρ → Bool
  notFound : EditError
  /-- What the endpoint refuses before it looks at `If-Match`, and after it. -/
  refuseBefore : ρ → Option EditError
  refuseAfter : β → ρ → Option EditError
  /-- The written row: from the body, the row that was read and the row that the write meets. -/
  patch : β → ρ → ρ → ρ
  id_patch : ∀ body read row, id (patch body read row) = id row
  rowVersion_patch : ∀ body read row, rowVersion (patch body read row) = rowVersion row + 1

variable {ρ β : Type}

def Endpoint.etag (E : Endpoint ρ β) (row : ρ) : ETag := ⟨E.id row, E.rowVersion row⟩

/-- `UPDATE` of the one row with an id. -/
def Endpoint.write (E : Endpoint ρ β) (request : EditRequest β) (read : ρ) :
    StateT (EditStore ρ) (Except EditError) Unit := fun s =>
  match s.rows.find? fun row => decide (E.id row = request.id) with
  | none => .error .recordNotFound
  | some current => .ok ((), {
      rows := updateWhere (fun row => decide (E.id row = request.id)) (E.patch request.body read)
        s.rows
      applied := s.applied ++ [⟨request.id, request.ifMatch, E.rowVersion current⟩] })

def update (E : Endpoint ρ β) (request : EditRequest β) :
    Prog (EditStore ρ) EditAccess EditError Unit := do
  let found ← .read (.find request.id) fun s => s.rows.find? fun row =>
    decide (E.id row = request.id ∧ E.tenantId row = request.tenantId) && E.isFound row
  match found with
  | none => throw E.notFound
  | some row =>
      match E.refuseBefore row with
      | some e => throw e
      | none =>
          if isAccepted request.ifMatch (E.etag row) then
            match E.refuseAfter request.body row with
            | some e => throw e
            | none => .atomically (.update request.id (E.rowVersion row)) (E.write request row)
          else
            throw (.conflict "RESOURCE_VERSION_CONFLICT"
              "The resource has changed since the version named in If-Match.")

/-! ## Books -/

/-- A row of `book`, as far as `updateBook` reads and writes it. -/
structure BookDetails where
  id : Id
  tenantId : Id
  deleted : Bool := false
  currentBookVersionId : Option Id := none
  title : String
  author : Option String := none
  language : String
  description : Option String := none
  series : Option String := none
  seriesIndex : Option ℤ := none
  publicationYear : Option ℤ := none
  publisher : Option String := none
  rowVersion : ℕ := 0
  deriving DecidableEq

/-- The body of `updateBook`. What is absent stays as it is; the inner `none` is null. -/
structure UpdateBookBody where
  title : Option String := none
  author : Option (Option String) := none
  language : Option String := none
  description : Option (Option String) := none
  series : Option (Option String) := none
  seriesIndex : Option (Option ℤ) := none
  publicationYear : Option (Option ℤ) := none
  publisher : Option (Option String) := none

/-- What `updateBook` edits. -/
def bookEditing : Endpoint BookDetails UpdateBookBody where
  id := BookDetails.id
  tenantId := BookDetails.tenantId
  rowVersion := BookDetails.rowVersion
  isFound _ := true
  notFound := .notFound "Book not found."
  refuseBefore book :=
    if book.deleted then
      some (.conflict "INVALID_STATE_TRANSITION" "This book is deleted and cannot be edited.")
    else none
  refuseAfter body book :=
    match body.language with
    | none => none
    | some language =>
        if language ≠ book.language ∧ book.currentBookVersionId.isSome then
          some (.conflict "INVALID_STATE_TRANSITION"
            "language cannot be changed after ingestion has produced canonical text. Create a new book instead.")
        else none
  patch body _ book := { book with
    title := body.title.getD book.title
    author := body.author.getD book.author
    language := body.language.getD book.language
    description := body.description.getD book.description
    series := body.series.getD book.series
    seriesIndex := body.seriesIndex.getD book.seriesIndex
    publicationYear := body.publicationYear.getD book.publicationYear
    publisher := body.publisher.getD book.publisher
    rowVersion := book.rowVersion + 1 }
  id_patch _ _ _ := rfl
  rowVersion_patch _ _ _ := rfl

def updateBook : EditRequest UpdateBookBody →
    Prog (EditStore BookDetails) EditAccess EditError Unit := update bookEditing

/-! ## Users -/

/-- The `preferences` of a user; what is absent is not set. -/
structure Preferences where
  locale : Option String := none
  notificationEmail : Option Bool := none
  deriving DecidableEq

/-- A row of `user`, as far as `updateCurrentUser` reads and writes it. -/
structure UserDetails where
  id : Id
  tenantId : Id
  deleted : Bool := false
  displayName : String
  preferences : Preferences := {}
  locale : Option String := none
  rowVersion : ℕ := 0
  deriving DecidableEq

/-- The body of `updateCurrentUser`. -/
structure UpdateCurrentUserBody where
  displayName : Option String := none
  preferences : Option Preferences := none

/-- What `updateCurrentUser` edits: the new preferences are spread over those that were read. -/
def userEditing : Endpoint UserDetails UpdateCurrentUserBody where
  id := UserDetails.id
  tenantId := UserDetails.tenantId
  rowVersion := UserDetails.rowVersion
  isFound user := !user.deleted
  notFound := .notFound "User not found."
  refuseBefore _ := none
  refuseAfter _ _ := none
  patch body read user := { user with
    displayName := body.displayName.getD user.displayName
    preferences := match body.preferences with
      | none => user.preferences
      | some preferences =>
          { locale := preferences.locale <|> read.preferences.locale
            notificationEmail :=
              preferences.notificationEmail <|> read.preferences.notificationEmail }
    locale := (body.preferences.bind Preferences.locale) <|> user.locale
    rowVersion := user.rowVersion + 1 }
  id_patch _ _ _ := rfl
  rowVersion_patch _ _ _ := rfl

def updateCurrentUser : EditRequest UpdateCurrentUserBody →
    Prog (EditStore UserDetails) EditAccess EditError Unit := update userEditing

/-! ## Any Number of Edits -/

def editSystem (E : Endpoint ρ β) :
    System (EditStore ρ) (EditRequest β) EditAccess EditError where
  init s := (s.rows.map E.id).Nodup ∧ s.applied = []
  enabled _ _ := True
  program := update E

instance (E : Endpoint ρ β) (i : EditRequest β) (s : EditStore ρ) :
    Decidable ((editSystem E).enabled i s) := isTrue trivial

/-- Every edit was of a version that its `If-Match` names, and of those that name one version
alone at most one was applied. -/
def OneWinner (s : EditStore ρ) : Prop :=
  (∀ edit ∈ s.applied, isAccepted edit.ifMatch ⟨edit.id, edit.appliedTo⟩ = true) ∧
    ∀ tag, (s.applied.filter fun edit => decide (edit.ifMatch = some [.tag tag])).length ≤ 1

/-- A row is written in the version in which it was read. -/
def Unraced (E : Endpoint ρ β) : EditAccess → EditStore ρ → Prop
  | .find _, _ => True
  | .update id rowVersion, s => ∀ row ∈ s.rows, E.id row = id → E.rowVersion row = rowVersion

instance (E : Endpoint ρ β) (a : EditAccess) (s : EditStore ρ) : Decidable (Unraced E a s) :=
  match a with
  | .find _ => isTrue trivial
  | .update id rowVersion =>
      inferInstanceAs (Decidable (∀ row ∈ s.rows, E.id row = id → E.rowVersion row = rowVersion))

/-- What edits in the versions that they read keep. -/
structure EditsOk (E : Endpoint ρ β) (s : EditStore ρ) : Prop where
  ids : (s.rows.map E.id).Nodup
  named : ∀ edit ∈ s.applied, isAccepted edit.ifMatch ⟨edit.id, edit.appliedTo⟩ = true
  /-- The version of a row is past all versions that were edited. -/
  below : ∀ edit ∈ s.applied, ∀ row ∈ s.rows, E.id row = edit.id → edit.appliedTo < E.rowVersion row
  once : (s.applied.map fun edit => (edit.id, edit.appliedTo)).Nodup

section proof

variable {E : Endpoint ρ β} {request : EditRequest β} {s s' : EditStore ρ} {read : ρ}

theorem write_eq_ok (h : E.write request read s = .ok ((), s')) :
    ∃ current ∈ s.rows, E.id current = request.id ∧
      s'.rows = updateWhere (fun row => decide (E.id row = request.id))
        (E.patch request.body read) s.rows ∧
      s'.applied = s.applied ++ [⟨request.id, request.ifMatch, E.rowVersion current⟩] := by
  unfold Endpoint.write at h
  split at h
  · cases h
  · next current hfind =>
      have hid := List.find?_some hfind
      rw [decide_eq_true_eq] at hid
      cases h
      exact ⟨current, List.mem_of_find?_eq_some hfind, hid, rfl, rfl⟩

theorem editsOk_write (h : EditsOk E s) (hnamed : isAccepted request.ifMatch (E.etag read) = true)
    (hread : E.id read = request.id)
    (hunraced : ∀ row ∈ s.rows, E.id row = request.id → E.rowVersion row = E.rowVersion read)
    (hwrite : E.write request read s = .ok ((), s')) : EditsOk E s' := by
  obtain ⟨current, hcurrent, hid, hrows, happlied⟩ := write_eq_ok hwrite
  have hversion := hunraced current hcurrent hid
  constructor
  · rw [hrows]
    exact nodup_map_updateWhere h.ids fun _ => E.id_patch _ _ _
  · rw [happlied]
    intro edit hedit
    rcases List.mem_append.mp hedit with hedit | hedit
    · exact h.named edit hedit
    · rw [List.mem_singleton.mp hedit]
      unfold Endpoint.etag at hnamed
      rw [hread, ← hversion] at hnamed
      exact hnamed
  · rw [happlied, hrows]
    intro edit hedit row hrow hrowid
    rcases mem_updateWhere.mp hrow with ⟨row₀, hrow₀, hmatch, rfl⟩ | ⟨hrow, hother⟩
    · rw [E.rowVersion_patch]
      rw [E.id_patch] at hrowid
      rcases List.mem_append.mp hedit with hedit | hedit
      · exact Nat.lt_succ_of_lt (h.below edit hedit row₀ hrow₀ hrowid)
      · rw [List.mem_singleton.mp hedit]
        rw [hversion, hunraced row₀ hrow₀ (of_decide_eq_true hmatch)]
        exact Nat.lt_succ_self _
    · rcases List.mem_append.mp hedit with hedit | hedit
      · exact h.below edit hedit row hrow hrowid
      · rw [List.mem_singleton.mp hedit] at hrowid
        exact absurd hrowid (of_decide_eq_false hother)
  · rw [happlied, List.map_append, List.nodup_append]
    refine ⟨h.once, List.nodup_singleton _, ?_⟩
    rintro _ hold _ hnew rfl
    obtain ⟨edit, hedit, heq⟩ := List.mem_map.mp hold
    rw [List.map_singleton, List.mem_singleton] at hnew
    rw [hnew, Prod.mk.injEq] at heq
    -- an earlier edit was of an earlier version
    have hbelow := h.below edit hedit current hcurrent (hid.trans heq.1.symm)
    rw [heq.2] at hbelow
    exact Nat.lt_irrefl _ hbelow

def editContract (E : Endpoint ρ β) : Contract (EditStore ρ) EditAccess :=
  .keeps (Unraced E) (EditsOk E)

theorem always_update (E : Endpoint ρ β) (request : EditRequest β) :
    (update E request).Always (editContract E).Allows := by
  refine Prog.always_read_bind (Contract.allows_id _ _) fun s => ?_
  split
  · exact Prog.always_throw _
  · next row hfind =>
      have hfound := List.find?_some hfind
      rw [Bool.and_eq_true, decide_eq_true_eq] at hfound
      split
      · exact Prog.always_throw _
      · split
        · next hnamed =>
            split
            · exact Prog.always_throw _
            · refine Prog.always_atomically (Contract.allows_commit _ fun s' _ s'' ha hwrite hok => ?_)
              exact editsOk_write hok hnamed hfound.1.1 ha hwrite
        · exact Prog.always_throw _

theorem EditsOk.oneWinner (h : EditsOk E s) : OneWinner s := by
  refine ⟨h.named, fun tag => ?_⟩
  have hsame : ∀ edit ∈ s.applied.filter fun edit => decide (edit.ifMatch = some [.tag tag]),
      (edit.id, edit.appliedTo) = (tag.id, tag.rowVersion) := by
    intro edit hedit
    obtain ⟨hedit, hmatch⟩ := List.mem_filter.mp hedit
    have hnamed := h.named edit hedit
    rw [of_decide_eq_true hmatch] at hnamed
    have heq : ETag.mk edit.id edit.appliedTo = tag := by simpa [isAccepted] using hnamed
    rw [← heq]
  -- these edits are of one version, and no version is edited twice
  have hnodup : ((s.applied.filter fun edit => decide (edit.ifMatch = some [.tag tag])).map
      fun edit => (edit.id, edit.appliedTo)).Nodup :=
    h.once.sublist (List.filter_sublist.map _)
  have hreplicate : (s.applied.filter fun edit => decide (edit.ifMatch = some [.tag tag])).map
      (fun edit => (edit.id, edit.appliedTo)) = List.replicate
        (s.applied.filter fun edit => decide (edit.ifMatch = some [.tag tag])).length
        (tag.id, tag.rowVersion) := by
    rw [List.eq_replicate_iff, List.length_map]
    refine ⟨rfl, fun pair hpair => ?_⟩
    obtain ⟨edit, hedit, rfl⟩ := List.mem_map.mp hpair
    exact hsame edit hedit
  rw [hreplicate, List.nodup_replicate] at hnodup
  exact hnodup

theorem oneWinner_of_reachable {c : Config (EditStore ρ) EditAccess EditError}
    (hc : (editSystem E).Reachable (Unraced E) c) : OneWinner c.store := by
  have hrespects : (editSystem E).Respects (editContract E) :=
    System.respects_of_always (always_update E)
  obtain ⟨s₀, ⟨hids, happlied⟩, hevolves⟩ := hrespects.evolves_of_reachable hc
  refine (hevolves ⟨hids, ?_, ?_, ?_⟩).oneWinner
  · rw [happlied]
    simp
  · rw [happlied]
    simp
  · rw [happlied]
    exact List.nodup_nil

end proof

/-- In every run of requests to `updateBook`, or to `updateCurrentUser`, in which every row is
written in the version in which it was read, there is one winner. -/
theorem oneWinner_of_unraced (books : Config (EditStore BookDetails) EditAccess EditError)
    (users : Config (EditStore UserDetails) EditAccess EditError) :
    ((editSystem bookEditing).Reachable (Unraced bookEditing) books → OneWinner books.store) ∧
      ((editSystem userEditing).Reachable (Unraced userEditing) users → OneWinner users.store) :=
  ⟨oneWinner_of_reachable, oneWinner_of_reachable⟩

/-! ## Two Edits -/

def retitle (title : String) : EditRequest UpdateBookBody where
  tenantId := 1
  id := 7
  ifMatch := some [.tag ⟨7, 0⟩]
  body := { title := some title }

def oneBook : EditStore BookDetails where
  rows := [{ id := 7, tenantId := 1, title := "Emma", language := "en" }]

def editedVersions (s : EditStore BookDetails) : List ℕ := s.applied.map Edit.appliedTo

theorem oneWinner_retitle : ∃ c, (editSystem bookEditing).Reachable (Unraced bookEditing) c ∧
    editedVersions c.store = [0] ∧ OneWinner c.store := by
  -- the second request reads what the first one wrote, and is refused
  have hplay : ((editSystem bookEditing).playAll (Unraced bookEditing) ⟨oneBook, []⟩
      [.spawn (retitle "Emma I"), .proceed 0, .proceed 0, .spawn (retitle "Emma II"),
        .proceed 1]).map (fun c => editedVersions c.store) = some [0] := by decide +kernel
  obtain ⟨c, hrun, hversions⟩ := System.exists_run_of_playAll (f := editedVersions) hplay
  have hreach : (editSystem bookEditing).Reachable (Unraced bookEditing) c :=
    ⟨oneBook, ⟨by decide, rfl⟩, hrun⟩
  exact ⟨c, hreach, hversions, (oneWinner_of_unraced c ⟨{}, []⟩).1 hreach⟩

/-- Two requests that both read a book before either writes it are both applied, the second one to
a version that it does not name. -/
theorem not_forall_oneWinner :
    ¬ ∀ c, (editSystem bookEditing).Reachable anyAccess c → OneWinner c.store := by
  intro h
  have hplay : ((editSystem bookEditing).playAll anyAccess ⟨oneBook, []⟩
      [.spawn (retitle "Emma I"), .spawn (retitle "Emma II"), .proceed 0, .proceed 1, .proceed 0,
        .proceed 1]).map (fun c => c.store.applied) =
      some [⟨7, some [.tag ⟨7, 0⟩], 0⟩, ⟨7, some [.tag ⟨7, 0⟩], 1⟩] := by decide +kernel
  obtain ⟨c, hrun, happlied⟩ := System.exists_run_of_playAll (f := EditStore.applied) hplay
  have honce := (h c ⟨oneBook, ⟨by decide, rfl⟩, hrun⟩).2 ⟨7, 0⟩
  rw [happlied] at honce
  exact absurd honce (by decide)

end AudioBook.Editing
