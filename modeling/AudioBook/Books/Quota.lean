import AudioBook.Concurrent.Triples
import AudioBook.Ingestion.Versions

/-!
# Quotas of a Tenant

The number of a tenant's books, and of those in an active generation status, are checked before a
book is created and before a stage starts: the service counts, and the request writes afterwards.
Requests of one tenant overlap in between, and a restored book is not checked at all.

- `resolveBucket`, `canActivate`: which requests `QuotaGuard` checks.
- `quotaSystem`: creations, stage starts, deletions, restorations and ends of stages, interleaved in
  any way.
- `WithinQuotas`: the limits hold.
- `Unraced`: the writes that find no more books than their checks counted.

## Main results

* `canActivate_path`: every start of a stage is checked.
* `withinQuotas_of_unraced`: the limits hold in every run of unraced steps.
-/

namespace AudioBook.Quota

open Relational Concurrent
open Structure (BookStatus)

/-! ## Rows -/

/-- The columns of `tenant_quota` that are limits of books. -/
structure TenantQuota where
  concurrentBooksLimit : ℕ
  booksTotalLimit : ℕ
  deriving DecidableEq, Repr

structure Book where
  id : ℕ
  tenantId : ℕ
  status : BookStatus := .created
  deleted : Bool := false
  deriving DecidableEq, Repr

def activeBookStatuses : List BookStatus :=
  [.parsing, .analyzing, .casting, .scripting, .generating, .assembling]

structure QuotaStore where
  quotas : ℕ → Option TenantQuota
  books : List Book := []
  nextId : ℕ := 0

inductive QuotaError
  | violation (v : Violation)
  | quotaExceeded
  | notFound
  | invalidStateTransition
  | recordNotFound
  | other
  deriving DecidableEq

instance : OfViolation QuotaError := ⟨QuotaError.violation⟩

/-- The table `book`. -/
def book : Table QuotaStore Book where
  rows := QuotaStore.books
  setRows rows s := { s with books := rows }
  constraints := [.uniqueWhere fun b => some b.id]

abbrev QuotaTx := Transaction QuotaStore QuotaError

/-! ## Counts -/

/-- The book counts for the tenant's `booksTotalLimit`. -/
def Book.counts (tenantId : ℕ) (b : Book) : Bool := b.tenantId = tenantId && !b.deleted

/-- The book counts for the tenant's `concurrentBooksLimit`. -/
def Book.countsActive (tenantId : ℕ) (b : Book) : Bool :=
  b.counts tenantId && decide (b.status ∈ activeBookStatuses)

def totalBooks (tenantId : ℕ) (s : QuotaStore) : ℕ := s.books.countP (Book.counts tenantId)

def activeBooks (tenantId : ℕ) (s : QuotaStore) : ℕ := s.books.countP (Book.countsActive tenantId)

/-- The tenant's books in an active status, without one. -/
def activeOthers (tenantId bookId : ℕ) (s : QuotaStore) : ℕ :=
  s.books.countP fun b => b.countsActive tenantId && decide (b.id ≠ bookId)

/-! ## The Guard -/

inductive RateLimitBucket
  | read
  | write
  | upload
  | expensive
  | accessUrl
  | auth
  deriving DecidableEq, Repr

def expensiveSegments : List String :=
  ["ingestion", "analysis", "director", "tts", "assembly", "previews", "casting",
    "character-merges"]

/-- `resolveBucket`, of an upper-case verb and the segments of a path. -/
def resolveBucket (verb : String) (segments : List String) : RateLimitBucket :=
  let last := segments.getLast?.getD ""
  if segments[0]? = some "api" ∧ segments[1]? = some "v1" ∧ segments[2]? = some "auth" then .auth
  else if verb = "GET" ∨ verb = "HEAD" then .read
  else if last = "access-urls" then .accessUrl
  else if "upload-sessions" ∈ segments then .upload
  else if last ∈ expensiveSegments then .expensive
  else if (∃ s ∈ segments, s ∈ expensiveSegments) ∧ verb = "POST" then .expensive
  else .write

/-- An access to the store. A write names what the check before it counted. -/
inductive QuotaAccess
  | query
  | createBook (tenantId : ℕ) (counted : Option ℕ)
  | startStage (tenantId bookId : ℕ) (counted : Option ℕ)
  | restoreBook (bookId : ℕ)
  | deleteBook (bookId : ℕ)
  | endStage (bookId : ℕ)

abbrev QuotaService := Prog QuotaStore QuotaAccess QuotaError

def query {α : Type} (f : QuotaStore → α) : QuotaService α := Prog.read .query f

/-- `assertCanStartGeneration`, with what it counted, if the tenant has a quota. -/
def assertCanStartGeneration (tenantId bookId : ℕ) : QuotaService (Option ℕ) := do
  match ← query fun s => s.quotas tenantId with
  | none => return none
  | some quota =>
      let active ← query (activeOthers tenantId bookId)
      if quota.concurrentBooksLimit ≤ active then throw .quotaExceeded
      else return some active

/-- `assertCanCreateBook`, with what it counted, if the tenant has a quota. -/
def assertCanCreateBook (tenantId : ℕ) : QuotaService (Option ℕ) := do
  match ← query fun s => s.quotas tenantId with
  | none => return none
  | some quota =>
      let total ← query (totalBooks tenantId)
      if quota.booksTotalLimit ≤ total then throw .quotaExceeded
      else return some total

/-- `QuotaGuard.canActivate`, for a principal of the tenant. -/
def canActivate (tenantId : ℕ) (verb : String) (segments : List String) (bookId : Option ℕ) :
    QuotaService (Option ℕ) :=
  if verb = "GET" ∨ verb = "HEAD" then return none
  else if resolveBucket verb segments ∉ [.expensive, .upload] then return none
  else match bookId with
    | none => return none
    | some bookId => assertCanStartGeneration tenantId bookId

/-! ## Requests -/

inductive Stage
  | ingestion
  | analysis
  | director
  | tts
  | assembly
  deriving DecidableEq, Repr

def Stage.segment : Stage → String
  | .ingestion => "ingestion"
  | .analysis => "analysis"
  | .director => "director"
  | .tts => "tts"
  | .assembly => "assembly"

def Stage.status : Stage → BookStatus
  | .ingestion => .parsing
  | .analysis => .analyzing
  | .director => .scripting
  | .tts => .generating
  | .assembly => .assembling

def Stage.path (stage : Stage) (bookId : ℕ) : List String :=
  ["api", "v1", "books", toString bookId, stage.segment]

/-- `book.update` by id; the database client raises when the row is not there. -/
def updateBook (bookId : ℕ) (f : Book → Book) : QuotaTx Unit := do
  if (← get).books.any fun b => decide (b.id = bookId) then
    book.update (fun b => decide (b.id = bookId)) f
  else throw .recordNotFound

/-- `book.create`. -/
def insertBook (tenantId : ℕ) : QuotaTx Unit := do
  let s ← get
  set { s with nextId := s.nextId + 1 }
  book.insert { id := s.nextId, tenantId }

def createBook (tenantId : ℕ) : QuotaService Unit := do
  let counted ← assertCanCreateBook tenantId
  Prog.atomically (.createBook tenantId counted) (insertBook tenantId)

def requireOwnedBook (tenantId bookId : ℕ) : QuotaService Book := do
  match ← query fun s => s.books.find? fun b => decide (b.id = bookId ∧ b.tenantId = tenantId) with
  | none => throw .notFound
  | some b => return b

/-- The start of a stage: the guard, and the service, whose own checks may end it anywhere. -/
def startStage (stage : Stage) (tenantId bookId : ℕ) : QuotaService Unit := do
  let counted ← canActivate tenantId "POST" (stage.path bookId) (some bookId)
  let _ ← requireOwnedBook tenantId bookId
  Prog.atomically (.startStage tenantId bookId counted)
    (updateBook bookId fun b => { b with status := stage.status })

/-- `restoreBook`; no check of the quota stands before it. -/
def restoreBook (tenantId bookId : ℕ) : QuotaService Unit := do
  let b ← requireOwnedBook tenantId bookId
  if b.deleted then
    Prog.atomically (.restoreBook bookId) (updateBook bookId fun b => { b with deleted := false })
  else throw .invalidStateTransition

/-- `deleteBook`; active jobs may end it. -/
def deleteBook (tenantId bookId : ℕ) : QuotaService Unit := do
  let b ← requireOwnedBook tenantId bookId
  if b.deleted then return
  else
    Prog.atomically (.deleteBook bookId) (updateBook bookId fun b => { b with deleted := true })

inductive QuotaRequest
  | createBook (tenantId : ℕ)
  | startStage (stage : Stage) (tenantId bookId : ℕ)
  | restoreBook (tenantId bookId : ℕ)
  | deleteBook (tenantId bookId : ℕ)
  /-- A worker, or an upload, takes the book to a status that is not active. -/
  | endStage (bookId : ℕ) (status : BookStatus)

/-- The limits of every tenant with a quota hold. -/
def WithinQuotas (s : QuotaStore) : Prop :=
  ∀ tenantId quota, s.quotas tenantId = some quota →
    totalBooks tenantId s ≤ quota.booksTotalLimit ∧
      activeBooks tenantId s ≤ quota.concurrentBooksLimit

/-- The ids of books are unique, and the limits hold. -/
structure Consistent (s : QuotaStore) : Prop where
  ids : (s.books.map Book.id).Nodup
  within : WithinQuotas s

/-- Any number of requests of any tenants, interleaved in any way. -/
def quotaSystem : System QuotaStore QuotaRequest QuotaAccess QuotaError where
  init := Consistent
  enabled
    | .endStage _ status, _ => status ∉ activeBookStatuses
    | _, _ => True
  program
    | .createBook tenantId => createBook tenantId
    | .startStage stage tenantId bookId => startStage stage tenantId bookId
    | .restoreBook tenantId bookId => restoreBook tenantId bookId
    | .deleteBook tenantId bookId => deleteBook tenantId bookId
    | .endStage bookId status =>
        Prog.atomically (.endStage bookId) (updateBook bookId fun b => { b with status })

instance : (i : QuotaRequest) → (s : QuotaStore) → Decidable (quotaSystem.enabled i s)
  | .endStage _ _, _ => inferInstanceAs (Decidable (_ ∉ _))
  | .createBook _, _ | .startStage _ _ _, _ | .restoreBook _ _, _ | .deleteBook _ _, _ =>
      isTrue trivial

/-! ## Every Start Is Checked -/

theorem resolveBucket_path (stage : Stage) (bookId : ℕ) :
    resolveBucket "POST" (stage.path bookId) ∈ [RateLimitBucket.expensive, .upload] := by
  have hlast : (stage.path bookId).getLast?.getD "" = stage.segment := rfl
  have hsegment : stage.segment ∈ expensiveSegments := by cases stage <;> decide
  have haccess : stage.segment ≠ "access-urls" := by cases stage <;> decide
  rw [resolveBucket, hlast, if_neg (by simp [Stage.path]), if_neg (by decide), if_neg haccess]
  split
  · simp
  · simp

theorem canActivate_path (stage : Stage) (tenantId bookId : ℕ) :
    canActivate tenantId "POST" (stage.path bookId) (some bookId) =
      assertCanStartGeneration tenantId bookId := by
  rw [canActivate, if_neg (by decide), if_neg (not_not.mpr (resolveBucket_path stage bookId))]

/-! ## Unraced Writes -/

/-- The tenant has room for one book more, which is active or not. -/
def HasRoom (tenantId : ℕ) (active : Bool) (s : QuotaStore) : Prop :=
  ∀ quota ∈ s.quotas tenantId, totalBooks tenantId s < quota.booksTotalLimit ∧
    (active = true → activeBooks tenantId s < quota.concurrentBooksLimit)

/-- A write finds no more books than the check before it counted; a book is restored where there is
room for it. -/
def Unraced : QuotaAccess → QuotaStore → Prop
  | .createBook tenantId counted, s => ∀ n ∈ counted, totalBooks tenantId s ≤ n
  | .startStage tenantId bookId counted, s => ∀ n ∈ counted, activeOthers tenantId bookId s ≤ n
  | .restoreBook bookId, s => ∀ b ∈ s.books, b.id = bookId → b.deleted = true →
      HasRoom b.tenantId (decide (b.status ∈ activeBookStatuses)) s
  | _, _ => True

instance (tenantId : ℕ) (active : Bool) (s : QuotaStore) : Decidable (HasRoom tenantId active s) :=
  inferInstanceAs (Decidable (∀ _ ∈ _, _ ∧ _))

instance : (l : QuotaAccess) → (s : QuotaStore) → Decidable (Unraced l s)
  | .createBook _ _, _ | .startStage _ _ _, _ | .restoreBook _, _ =>
      inferInstanceAs (Decidable (∀ _ ∈ _, _))
  | .query, _ | .deleteBook _, _ | .endStage _, _ => isTrue trivial

/-! ## What the Writes Do -/

section changes

variable {s s' : QuotaStore}

/-- A later version of the same book. -/
def Book.Same (b b' : Book) : Prop := b'.id = b.id ∧ b'.tenantId = b.tenantId

instance : IsPreorder Book Book.Same where
  refl _ := ⟨rfl, rfl⟩
  trans _ _ _ h₁ h₂ := ⟨h₂.1.trans h₁.1, h₂.2.trans h₁.2⟩

/-- Quotas stay, and books stay with their tenants. -/
structure Later (s s' : QuotaStore) : Prop where
  quotas : s'.quotas = s.quotas
  books : Persist Book.Same s.books s'.books

instance : IsPreorder QuotaStore Later where
  refl s := ⟨rfl, refl_of (Persist Book.Same) s.books⟩
  trans _ _ _ h₁ h₂ := ⟨h₂.quotas.trans h₁.quotas, trans_of (Persist Book.Same) h₁.books h₂.books⟩

def QuotaStore.withBook (bookId : ℕ) (f : Book → Book) (s : QuotaStore) : QuotaStore :=
  { s with books := updateWhere (fun b => decide (b.id = bookId)) f s.books }

variable {f : Book → Book}

theorem updateBook_eq_ok {bookId : ℕ} (h : updateBook bookId f s = .ok ((), s')) :
    s' = s.withBook bookId f := by
  obtain ⟨_, _, hget, h⟩ := Transaction.bind_eq_ok_iff.mp h
  cases hget
  split at h
  · exact ((Table.update_eq_ok_iff (ε := QuotaError) book).mp h).2
  · cases h

theorem later_withBook (bookId : ℕ) (hf : ∀ b : Book, b.Same (f b)) (s : QuotaStore) :
    Later s (s.withBook bookId f) :=
  ⟨rfl, Persist.updateWhere fun b _ _ => hf b⟩

theorem nodup_withBook {bookId : ℕ} (hf : ∀ b : Book, b.Same (f b))
    (h : (s.books.map Book.id).Nodup) : ((s.withBook bookId f).books.map Book.id).Nodup :=
  nodup_map_updateWhere h fun b => (hf b).1

theorem Consistent.withBook_of_le (h : Consistent s) (bookId : ℕ) (hf : ∀ b : Book, b.Same (f b))
    (hcounts : ∀ b id, (f b).counts id = true → b.counts id = true)
    (hactive : ∀ b id, (f b).countsActive id = true → b.countsActive id = true) :
    Consistent (s.withBook bookId f) where
  ids := nodup_withBook hf h.ids
  within tenantId quota hquota := by
    obtain ⟨htotal, hconcurrent⟩ := h.within tenantId quota hquota
    exact ⟨Nat.le_trans (countP_updateWhere_le fun b _ _ => hcounts b tenantId) htotal,
      Nat.le_trans (countP_updateWhere_le fun b _ _ => hactive b tenantId) hconcurrent⟩

theorem insertBook_eq_ok {tenantId : ℕ} (h : insertBook tenantId s = .ok ((), s')) :
    (s'.books.map Book.id).Nodup ∧ s'.quotas = s.quotas ∧
      s'.books = s.books ++ [{ id := s.nextId, tenantId }] := by
  obtain ⟨_, _, hget, h⟩ := Transaction.bind_eq_ok_iff.mp h
  cases hget
  obtain ⟨_, _, hset, h⟩ := Transaction.bind_eq_ok_iff.mp h
  cases hset
  obtain ⟨hacc, rfl⟩ := (Table.insert_eq_ok_iff (ε := QuotaError) book).mp h
  refine ⟨?_, rfl, rfl⟩
  have hids := (Constraint.holds_uniqueWhere _ _).mp (hacc _ (List.mem_singleton_self _))
  exact uniqueWhere_some.mp hids

theorem Consistent.insertBook (h : Consistent s) {tenantId : ℕ}
    (hroom : ∀ quota, s.quotas tenantId = some quota →
      totalBooks tenantId s < quota.booksTotalLimit)
    (hok : insertBook tenantId s = .ok ((), s')) : Consistent s' ∧ Later s s' := by
  obtain ⟨hids, hquotas, hbooks⟩ := insertBook_eq_ok hok
  refine ⟨⟨hids, fun id quota hquota => ?_⟩, hquotas, ?_⟩
  · rw [hquotas] at hquota
    obtain ⟨htotal, hconcurrent⟩ := h.within id quota hquota
    rw [totalBooks, activeBooks, hbooks, List.countP_append, List.countP_append,
      List.countP_singleton, List.countP_singleton]
    constructor
    · by_cases hid : tenantId = id
      · subst hid
        have hlt := hroom quota hquota
        split
        · exact hlt
        · exact htotal
      · rw [if_neg (by simp [Book.counts, hid])]
        exact htotal
    · rw [if_neg (by simp [Book.countsActive, activeBookStatuses])]
      exact hconcurrent
  · rw [hbooks]
    exact Persist.append _ _ _

theorem Consistent.startStage (h : Consistent s) {tenantId bookId : ℕ} (status : BookStatus)
    (howner : ∀ b ∈ s.books, b.id = bookId → b.tenantId = tenantId)
    (hroom : ∀ quota, s.quotas tenantId = some quota →
      activeOthers tenantId bookId s < quota.concurrentBooksLimit) :
    Consistent (s.withBook bookId fun b => { b with status }) := by
  refine ⟨nodup_withBook (fun _ => ⟨rfl, rfl⟩) h.ids, fun id quota hquota => ?_⟩
  obtain ⟨htotal, hconcurrent⟩ := h.within id quota hquota
  refine ⟨Nat.le_trans (countP_updateWhere_le fun _ _ _ hb => hb) htotal, ?_⟩
  by_cases hid : id = tenantId
  · subst hid
    have hlt := hroom quota hquota
    exact Nat.le_trans (countP_updateWhere_id_le h.ids bookId) hlt
  · -- The book of another tenant is not touched.
    refine Nat.le_trans (Nat.le_of_eq ?_) hconcurrent
    rw [activeBooks, activeBooks, QuotaStore.withBook, updateWhere, List.countP_map]
    refine List.countP_congr fun b hb => ?_
    rw [Function.comp_apply]
    split
    · next hbook =>
      have hother := howner b hb (of_decide_eq_true hbook)
      simp [Book.countsActive, Book.counts, hother, Ne.symm hid]
    · rfl

theorem Consistent.restoreBook (h : Consistent s) {bookId : ℕ}
    (hadmits : Unraced (.restoreBook bookId) s) :
    Consistent (s.withBook bookId fun b => { b with deleted := false }) := by
  refine ⟨nodup_withBook (fun _ => ⟨rfl, rfl⟩) h.ids, fun id quota hquota => ?_⟩
  obtain ⟨htotal, hconcurrent⟩ := h.within id quota hquota
  by_cases hfound : ∃ b ∈ s.books, b.id = bookId ∧ b.deleted = true ∧ b.tenantId = id
  · obtain ⟨b, hb, hid, hdeleted, rfl⟩ := hfound
    obtain ⟨hroom, hactive⟩ := hadmits b hb hid hdeleted quota hquota
    refine ⟨Nat.le_trans (countP_updateWhere_id_le h.ids bookId) ?_, ?_⟩
    · exact Nat.le_trans (Nat.succ_le_succ (List.countP_mono_left fun b' _ hb' =>
        (Bool.and_eq_true_iff.mp hb').1)) hroom
    · by_cases hstatus : b.status ∈ activeBookStatuses
      · refine Nat.le_trans (countP_updateWhere_id_le h.ids bookId) ?_
        exact Nat.le_trans (Nat.succ_le_succ (List.countP_mono_left fun b' _ hb' =>
          (Bool.and_eq_true_iff.mp hb').1)) (hactive (decide_eq_true hstatus))
      · refine Nat.le_trans (countP_updateWhere_le fun b' hb' hid' hrestored => ?_) hconcurrent
        -- The restored row is the only one with its id.
        obtain rfl : b' = b := List.inj_on_of_nodup_map h.ids hb' hb
          ((of_decide_eq_true hid').trans hid.symm)
        simp [Book.countsActive, hstatus] at hrestored
  · -- The row of another tenant, or one that is not deleted, counts as before.
    have hsame : ∀ b ∈ s.books, b.id = bookId → b.tenantId = id → b.deleted = false := by
      intro b hb hid htenant
      by_contra hdeleted
      exact hfound ⟨b, hb, hid, by simpa using hdeleted, htenant⟩
    constructor
    · refine Nat.le_trans (countP_updateWhere_le fun b hb hid hrestored => ?_) htotal
      have htenant : b.tenantId = id := by simpa [Book.counts] using hrestored
      simp [Book.counts, htenant, hsame b hb (of_decide_eq_true hid) htenant]
    · refine Nat.le_trans (countP_updateWhere_le fun b hb hid hrestored => ?_) hconcurrent
      have hboth : b.tenantId = id ∧ b.status ∈ activeBookStatuses := by
        simpa [Book.countsActive, Book.counts] using hrestored
      simp [Book.countsActive, Book.counts, hboth.1, hboth.2,
        hsame b hb (of_decide_eq_true hid) hboth.1]

end changes

/-! ## The Requests Keep the Limits -/

/-- The limits hold, quotas stay, and books stay with their tenants, as long as the writes are
unraced. -/
def quotaContract : Contract QuotaStore QuotaAccess := .ofInvariant Unraced Consistent Later

section programs

variable {tenantId bookId : ℕ}

/-- The check before a write: the tenant has no quota, or a limit above what was counted. -/
def Checked (tenantId : ℕ) (limit : TenantQuota → ℕ) (counted : Option ℕ) (s : QuotaStore) : Prop :=
  ∀ quota, s.quotas tenantId = some quota → ∃ n ∈ counted, n < limit quota

theorem stable_checked (tenantId : ℕ) (limit : TenantQuota → ℕ) (counted : Option ℕ) :
    quotaContract.Stable fun s => Consistent s ∧ Checked tenantId limit counted s := by
  refine Contract.stable_of_mono fun s s' _ hlater hchecked quota hquota => ?_
  exact hchecked quota (hlater.quotas ▸ hquota)

theorem triple_check (limit : TenantQuota → ℕ) (count : QuotaStore → ℕ) :
    quotaContract.Triple Consistent
      (do
        match ← query fun s => s.quotas tenantId with
        | none => return none
        | some quota =>
            let n ← query count
            if limit quota ≤ n then throw .quotaExceeded
            else return some n : QuotaService (Option ℕ))
      fun counted s => Consistent s ∧ Checked tenantId limit counted s := by
  refine Contract.Triple.bind
    (G := fun found s => Consistent s ∧ s.quotas tenantId = found)
    (Contract.triple_read Contract.stable_invariant fun s hs => ⟨hs, rfl⟩) fun found => ?_
  cases found with
  | none =>
    refine Contract.triple_pure fun s hs => ⟨hs.1, fun quota hquota => ?_⟩
    rw [hs.2] at hquota
    cases hquota
  | some quota =>
    have hstable : quotaContract.Stable fun s =>
        Consistent s ∧ s.quotas tenantId = some quota :=
      Contract.stable_of_mono fun s s' _ hlater hquota => by rw [hlater.quotas, hquota]
    refine Contract.Triple.bind
      (G := fun _ s => Consistent s ∧ s.quotas tenantId = some quota)
      (Contract.triple_read hstable fun s hs => hs) fun n => ?_
    split
    · exact Contract.triple_throw
    · next hroom =>
      refine Contract.triple_pure fun s hs => ⟨hs.1, fun quota' hquota => ?_⟩
      obtain rfl := Option.some.inj (hs.2.symm.trans hquota)
      exact ⟨n, rfl, Nat.lt_of_not_le hroom⟩

/-- A found book is the tenant's, and stays so. -/
def Owned (tenantId bookId : ℕ) (s : QuotaStore) : Prop :=
  ∃ b ∈ s.books, b.id = bookId ∧ b.tenantId = tenantId

theorem Owned.later {s s' : QuotaStore} (h : Owned tenantId bookId s) (hlater : Later s s') :
    Owned tenantId bookId s' := by
  obtain ⟨b, hb, hid, htenant⟩ := h
  obtain ⟨b', hb', hsame⟩ := hlater.books b hb
  exact ⟨b', hb', hsame.1.trans hid, hsame.2.trans htenant⟩

theorem triple_requireOwnedBook {F : QuotaStore → Prop}
    (hF : quotaContract.Stable fun s => Consistent s ∧ F s) :
    quotaContract.Triple (fun s => Consistent s ∧ F s) (requireOwnedBook tenantId bookId)
      fun _ s => Consistent s ∧ F s ∧ Owned tenantId bookId s := by
  refine Contract.Triple.bind
    (G := fun found s => (Consistent s ∧ F s) ∧ (found.isSome → Owned tenantId bookId s))
    (Contract.triple_read hF fun s hs => ⟨hs, fun hfound => ?_⟩) fun found => ?_
  · obtain ⟨b, hb⟩ := Option.isSome_iff_exists.mp hfound
    have hmatch : b.id = bookId ∧ b.tenantId = tenantId := by simpa using List.find?_some hb
    exact ⟨b, List.mem_of_find?_eq_some hb, hmatch⟩
  · cases found with
    | none => exact Contract.triple_throw
    | some b => exact Contract.triple_pure fun s hs => ⟨hs.1.1, hs.1.2, hs.2 rfl⟩

theorem triple_createBook (tenantId : ℕ) :
    quotaContract.Triple Consistent (createBook tenantId) fun _ _ => True := by
  refine (triple_check TenantQuota.booksTotalLimit (totalBooks tenantId)).bind fun counted => ?_
  refine Contract.triple_atomically (stable_checked _ _ _) fun s _ s' hs hadmits hok => ?_
  refine ⟨fun hcons => hcons.insertBook (fun quota hquota => ?_) hok, trivial⟩
  obtain ⟨n, hn, hlt⟩ := hs.2 quota hquota
  exact Nat.lt_of_le_of_lt (hadmits n hn) hlt

theorem triple_startStage (stage : Stage) (tenantId bookId : ℕ) :
    quotaContract.Triple Consistent (startStage stage tenantId bookId) fun _ _ => True := by
  rw [startStage, canActivate_path]
  refine (triple_check TenantQuota.concurrentBooksLimit (activeOthers tenantId bookId)).bind
    fun counted => ?_
  refine (triple_requireOwnedBook (stable_checked _ _ _)).bind fun _ => ?_
  refine Contract.triple_atomically ?_ fun s _ s' hs hadmits hok => ?_
  · refine Contract.stable_of_mono fun s s' hs hlater hfacts => ?_
    refine ⟨fun quota hquota => hfacts.1 quota (hlater.quotas ▸ hquota), hfacts.2.later hlater⟩
  · obtain ⟨hcons, hchecked, b, hb, hid, htenant⟩ := hs
    obtain rfl := updateBook_eq_ok hok
    have hsame : ∀ b : Book, b.Same { b with status := stage.status } := fun _ => ⟨rfl, rfl⟩
    have howner : ∀ b' ∈ s.books, b'.id = bookId → b'.tenantId = tenantId := by
      intro b' hb' hid'
      rwa [List.inj_on_of_nodup_map hcons.ids hb' hb (hid'.trans hid.symm)]
    have hroom : ∀ quota, s.quotas tenantId = some quota →
        activeOthers tenantId bookId s < quota.concurrentBooksLimit := by
      intro quota hquota
      obtain ⟨n, hn, hlt⟩ := hchecked quota hquota
      exact Nat.lt_of_le_of_lt (hadmits n hn) hlt
    exact ⟨fun _ => ⟨hcons.startStage stage.status howner hroom, later_withBook bookId hsame s⟩,
      trivial⟩

theorem allows_updateBook {l : QuotaAccess} {bookId : ℕ} {f : Book → Book}
    (hf : ∀ b : Book, b.Same (f b))
    (hcounts : ∀ b id, (f b).counts id = true → b.counts id = true)
    (hactive : ∀ b id, (f b).countsActive id = true → b.countsActive id = true) :
    quotaContract.Allows l (Prog.commit (updateBook bookId f)) := by
  refine quotaContract.allows_commit fun s _ s' _ hok hcons => ?_
  obtain rfl := updateBook_eq_ok hok
  exact ⟨hcons.withBook_of_le bookId hf hcounts hactive, later_withBook bookId hf s⟩

theorem allows_restoreBook (bookId : ℕ) :
    quotaContract.Allows (.restoreBook bookId)
      (Prog.commit (updateBook bookId fun b => { b with deleted := false })) := by
  refine quotaContract.allows_commit fun s _ s' hadmits hok hcons => ?_
  obtain rfl := updateBook_eq_ok hok
  have hsame : ∀ b : Book, b.Same { b with deleted := false } := fun _ => ⟨rfl, rfl⟩
  exact ⟨hcons.restoreBook hadmits, later_withBook bookId hsame s⟩

theorem always_requireOwnedBook (tenantId bookId : ℕ) :
    (requireOwnedBook tenantId bookId).Always quotaContract.Allows := by
  refine Prog.always_bind (Prog.always_read (Contract.allows_id _ _)) fun found => ?_
  cases found with
  | none => exact Prog.always_throw _
  | some b => exact Prog.always_pure _

theorem quotaSystem_respects : quotaSystem.Respects quotaContract := by
  intro s₀ s i hinit hev henabled
  have hs : Consistent s := (hev hinit).1
  cases i with
  | createBook tenantId => exact (triple_createBook tenantId).safe hs
  | startStage stage tenantId bookId => exact (triple_startStage stage tenantId bookId).safe hs
  | restoreBook tenantId bookId =>
    refine Contract.safe_of_always (Prog.always_bind (always_requireOwnedBook _ _) fun b => ?_)
    split
    · exact Prog.always_atomically (allows_restoreBook bookId)
    · exact Prog.always_throw _
  | deleteBook tenantId bookId =>
    refine Contract.safe_of_always (Prog.always_bind (always_requireOwnedBook _ _) fun b => ?_)
    split
    · exact Prog.always_pure _
    · refine Prog.always_atomically (allows_updateBook (fun _ => ⟨rfl, rfl⟩) ?_ ?_)
      · simp [Book.counts]
      · simp [Book.countsActive, Book.counts]
  | endStage bookId status =>
    refine Contract.safe_of_always
      (Prog.always_atomically (allows_updateBook (fun _ => ⟨rfl, rfl⟩) (fun _ _ h => h) ?_))
    intro b id hactive
    -- The status is not an active one.
    have hstatus : status ∈ activeBookStatuses := by
      simpa using (Bool.and_eq_true_iff.mp hactive).2
    exact absurd hstatus henabled

/-- **Quotas under concurrency.** In every run in which no write finds more books than the check
before it counted, and books are restored where there is room, the limits of every tenant with a
quota hold. -/
theorem withinQuotas_of_unraced {c : Config QuotaStore QuotaAccess QuotaError}
    (h : quotaSystem.Reachable Unraced c) : WithinQuotas c.store := by
  obtain ⟨s₀, hinit, hev⟩ := quotaSystem_respects.evolves_of_reachable h
  exact (hev hinit).1.within

end programs

/-! ## Histories -/

/-- Tenant 1, which may have two books, one of them active, and has two of which none is. -/
def twoBooks : QuotaStore where
  quotas tenantId := if tenantId = 1 then some ⟨1, 2⟩ else none
  books := [{ id := 10, tenantId := 1, status := .structured },
    { id := 11, tenantId := 1, status := .structured }]
  nextId := 12

/-- The same with the first book alone. -/
def oneBook : QuotaStore := { twoBooks with books := twoBooks.books.take 1 }

theorem consistent_twoBooks : Consistent twoBooks := by
  refine ⟨by decide, fun tenantId quota hquota => ?_⟩
  by_cases hid : tenantId = 1
  · subst hid
    obtain rfl : (⟨1, 2⟩ : TenantQuota) = quota := Option.some.inj hquota
    decide
  · simp [twoBooks, hid] at hquota

theorem consistent_oneBook : Consistent oneBook := by
  refine ⟨by decide, fun tenantId quota hquota => ?_⟩
  by_cases hid : tenantId = 1
  · subst hid
    obtain rfl : (⟨1, 2⟩ : TenantQuota) = quota := Option.some.inj hquota
    decide
  · simp [oneBook, twoBooks, hid] at hquota

/-- What a run shows of the books of tenant 1. -/
def counts (s : QuotaStore) : ℕ × ℕ := (totalBooks 1 s, activeBooks 1 s)

/-- Two stages of one book, one after the other. -/
theorem withinQuotas_of_unraced_stages :
    ∃ c, quotaSystem.Reachable Unraced c ∧ counts c.store = (2, 1) ∧ WithinQuotas c.store := by
  have hplay : (quotaSystem.playAll Unraced ⟨twoBooks, []⟩
      (.spawn (.startStage .analysis 1 10) :: List.replicate 4 (.proceed 0) ++
        .spawn (.startStage .director 1 10) :: List.replicate 4 (.proceed 1))).map
          (fun c => counts c.store) = some (2, 1) := by decide +kernel
  obtain ⟨c, hrun, hcounts⟩ := System.exists_run_of_playAll (f := counts) hplay
  have hreach : quotaSystem.Reachable Unraced c := ⟨twoBooks, consistent_twoBooks, hrun⟩
  exact ⟨c, hreach, hcounts, withinQuotas_of_unraced hreach⟩

/-- Two creations, and two starts, that both count before either of them writes. -/
theorem not_forall_withinQuotas :
    (¬ ∀ c, quotaSystem.Reachable anyAccess c → ∀ tenantId quota,
      c.store.quotas tenantId = some quota →
        totalBooks tenantId c.store ≤ quota.booksTotalLimit) ∧
    ¬ ∀ c, quotaSystem.Reachable anyAccess c → ∀ tenantId quota,
      c.store.quotas tenantId = some quota →
        activeBooks tenantId c.store ≤ quota.concurrentBooksLimit := by
  constructor
  · intro h
    have hplay : (quotaSystem.playAll anyAccess ⟨oneBook, []⟩
        ([.spawn (.createBook 1), .spawn (.createBook 1), .proceed 0, .proceed 0, .proceed 1,
          .proceed 1, .proceed 0, .proceed 1])).map
            (fun c => (c.store.quotas 1, counts c.store)) = some (some ⟨1, 2⟩, 3, 0) := by
      decide +kernel
    obtain ⟨c, hrun, hcounts⟩ :=
      System.exists_run_of_playAll (f := fun s => (QuotaStore.quotas s 1, counts s)) hplay
    obtain ⟨hquota, hcounts⟩ := Prod.mk.inj hcounts
    have hbound := h c ⟨oneBook, consistent_oneBook, hrun⟩ 1 _ hquota
    rw [(Prod.mk.inj hcounts).1] at hbound
    exact absurd hbound (by decide)
  · intro h
    have hplay : (quotaSystem.playAll anyAccess ⟨twoBooks, []⟩
        ([.spawn (.startStage .analysis 1 10), .spawn (.startStage .analysis 1 11), .proceed 0,
          .proceed 0, .proceed 1, .proceed 1, .proceed 0, .proceed 0, .proceed 1, .proceed 1])).map
            (fun c => (c.store.quotas 1, counts c.store)) = some (some ⟨1, 2⟩, 2, 2) := by
      decide +kernel
    obtain ⟨c, hrun, hcounts⟩ :=
      System.exists_run_of_playAll (f := fun s => (QuotaStore.quotas s 1, counts s)) hplay
    obtain ⟨hquota, hcounts⟩ := Prod.mk.inj hcounts
    have hbound := h c ⟨twoBooks, consistent_twoBooks, hrun⟩ 1 _ hquota
    rw [(Prod.mk.inj hcounts).2] at hbound
    exact absurd hbound (by decide)

end AudioBook.Quota
