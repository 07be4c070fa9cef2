import AudioBook.Keys.Segments
import AudioBook.Relational.Table
import AudioBook.Schema.Rows
import Mathlib.Data.Char
import Mathlib.Data.List.Lex
import Mathlib.Data.List.Sort

/-!
# Revision Requests

`reviseDirector` stores one `revise_director_ir` job for a list of chunks. The row carries the sorted
ids, joined by commas: as its fingerprint, in a column of 64 characters, and in its idempotency key,
which stays taken after the job has succeeded. A row is one of the caller's own book.

Main results:

- `chunkIdSetHash_inj`: the fingerprint determines the ids.
- `reviseDirector_stores_iff`: only a request for one chunk is stored.
- `reviseDirector_of_succeeded`: no request is stored again.
-/

namespace AudioBook.RevisionRequests

open Keys Relational

/-! ## Ids -/

/-- `[0-9a-f]`, in either case. -/
def isHexDigit (c : Char) : Bool :=
  c.isDigit || (decide ('a' ≤ c.toLower) && decide (c.toLower ≤ 'f'))

def hexValue (c : Char) : ℕ := if c.isDigit then c.toNat - 48 else c.toLower.toNat - 87

/-- The optional start of a UUID. -/
def urnPrefix : Text := "urn:uuid:".toList

/-- A UUID without its optional start. -/
def withoutUrn (text : Text) : Text :=
  if (text.take 9).map Char.toLower = urnPrefix then text.drop 9 else text

/-- `[0-9a-f]{8}-(?:[0-9a-f]{4}-){3}[0-9a-f]{12}`, the whole text. -/
def isUuidBody (text : Text) : Bool :=
  decide (text.length = 36) && text.zipIdx.all fun (c, i) =>
    if i ∈ [8, 13, 18, 23] then decide (c = '-') else isHexDigit c

/-- A text that the format `uuid` admits. -/
structure UuidText where
  text : Text
  isUuid : isUuidBody (withoutUrn text) = true
  deriving DecidableEq

namespace UuidText

def value (id : UuidText) : Id :=
  ((withoutUrn id.text).filter isHexDigit).foldl (fun n c => 16 * n + hexValue c) 0

theorem length_bounds (id : UuidText) : 36 ≤ id.text.length ∧ id.text.length ≤ 45 := by
  obtain ⟨hlength, -⟩ := (Bool.and_eq_true_iff).mp id.isUuid
  have hbody : (withoutUrn id.text).length = 36 := of_decide_eq_true hlength
  unfold withoutUrn at hbody
  split at hbody
  · rw [List.length_drop] at hbody
    omega
  · omega

theorem comma_not_mem (id : UuidText) : ',' ∉ id.text := by
  have hbody : ',' ∉ withoutUrn id.text := by
    intro hmem
    obtain ⟨i, hi, hc⟩ := List.getElem_of_mem hmem
    have hall := List.all_eq_true.mp (Bool.and_eq_true_iff.mp id.isUuid).2 (',', i)
      (List.mem_zipIdx_iff_getElem?.mpr (by rw [List.getElem?_eq_getElem hi, hc]))
    dsimp only at hall
    split at hall
    · exact absurd hall (by decide)
    · exact absurd hall (by decide)
  unfold withoutUrn at hbody
  split at hbody
  case isTrue hurn =>
    -- in lower case the start has no comma, and a comma has no case
    intro hmem
    rw [← List.take_append_drop 9 id.text] at hmem
    rcases List.mem_append.mp hmem with hmem | hmem
    · have hlower : Char.toLower ',' ∈ urnPrefix := hurn ▸ List.mem_map_of_mem hmem
      exact absurd hlower (by decide +kernel)
    · exact hbody hmem
  case isFalse => exact hbody

/-- A UUID in a list that is joined by commas. -/
def segment (id : UuidText) : Segment ',' := ⟨id.text, id.comma_not_mem⟩

theorem segment_injective : Function.Injective segment := by
  rintro ⟨text, h⟩ ⟨text', h'⟩ heq
  cases congrArg Segment.text heq
  rfl

end UuidText

/-- `[...ids].sort()`. -/
def sortedIds (ids : List UuidText) : List UuidText :=
  ids.insertionSort fun a b => a.text ≤ b.text

def chunkIdSetHash (ids : List UuidText) : Text :=
  Segment.join ((sortedIds ids).map UuidText.segment)

theorem sortedIds_perm (ids : List UuidText) : (sortedIds ids).Perm ids :=
  List.perm_insertionSort _ ids

theorem sortedIds_ne_nil {ids : List UuidText} (hids : ids ≠ []) : sortedIds ids ≠ [] := by
  intro hnil
  have hlength := (sortedIds_perm ids).length_eq
  rw [hnil] at hlength
  exact hids (List.length_eq_zero_iff.mp hlength.symm)

theorem chunkIdSetHash_inj {ids ids' : List UuidText} (hids : ids ≠ []) (hids' : ids' ≠ [])
    (h : chunkIdSetHash ids = chunkIdSetHash ids') : ids.Perm ids' := by
  have hne : ∀ {l : List UuidText}, l ≠ [] → (sortedIds l).map UuidText.segment ≠ [] :=
    fun hl hnil => sortedIds_ne_nil hl (List.map_eq_nil_iff.mp hnil)
  have hsegments := (Segment.join_inj (hne hids) (hne hids')).mp h
  have hsorted := List.map_injective_iff.mpr UuidText.segment_injective hsegments
  exact (sortedIds_perm ids).symm.trans (hsorted ▸ sortedIds_perm ids')

theorem length_chunkIdSetHash_le_iff {ids : List UuidText} (hids : ids ≠ []) :
    (chunkIdSetHash ids).length ≤ 64 ↔ ids.length = 1 := by
  rw [← (sortedIds_perm ids).length_eq, chunkIdSetHash]
  match h : sortedIds ids with
  | [] => exact absurd h (sortedIds_ne_nil hids)
  | [a] =>
    have ha := a.length_bounds
    simp only [List.map_cons, List.map_nil, Segment.join_singleton, List.length_singleton,
      iff_true]
    exact ha.2.trans (by omega)
  | a :: b :: rest =>
    -- two ids and a comma are already longer
    have ha := a.length_bounds
    have hb := b.length_bounds
    have hjoin := Segment.length_le_length_join b.segment (rest.map UuidText.segment)
    simp only [List.map_cons, Segment.join_cons_cons, List.length_append, List.length_cons,
      List.length_nil]
    simp only [UuidText.segment] at hjoin ⊢
    omega

/-! ## Rows -/

inductive RevisionReason
  | characterMerged
  | voiceReassigned
  | lexiconChanged
  | userEdit
  deriving DecidableEq

def RevisionReason.name : RevisionReason → String
  | characterMerged => "CHARACTER_MERGED"
  | voiceReassigned => "VOICE_REASSIGNED"
  | lexiconChanged => "LEXICON_CHANGED"
  | userEdit => "USER_EDIT"

/-- `ReviseDirectorBody`, as the schema admits it. -/
structure ReviseDirectorBody where
  chunkIds : List UuidText
  revisionReason : RevisionReason
  directorVersion : Option Text := none
  minItems : chunkIds ≠ []
  maxItems : chunkIds.length ≤ 500
  versionLength : ∀ version ∈ directorVersion, 1 ≤ version.length ∧ version.length ≤ 64

/-- `audio_script_chunk`, as far as a revision request depends on it. -/
structure ScriptChunk where
  id : Id
  bookId : Id
  audioScriptId : Text
  directorVersion : Text
  isCurrent : Bool := true
  isLocked : Bool := false
  deriving DecidableEq

/-- `processing_job`, with the payload of its envelope. -/
structure RevisionJob where
  id : Id
  tenantId : Id
  bookId : Id
  relatedResourceId : Text
  chunkIds : List UuidText
  revisionReason : RevisionReason
  directorVersion : Text
  status : JobStatus := .created
  idempotencyKey : Text
  idempotencyFingerprint : Text
  deriving DecidableEq

/-- The key of `processing_job_tenant_idempotency_key`. -/
def RevisionJob.liveKey (job : RevisionJob) : Option (Id × Text) :=
  if job.status ∈ [.failed, .cancelled, .deadLettered] then none
  else some (job.tenantId, job.idempotencyKey)

structure RevisionStore where
  chunks : List ScriptChunk := []
  jobs : List RevisionJob := []

/-- `processing_job`; a `CHAR(64)` holds no longer text. -/
def processingJob : Table RevisionStore RevisionJob where
  rows := RevisionStore.jobs
  setRows rows s := { s with jobs := rows }
  constraints := [.uniqueWhere fun job => some job.id, .uniqueWhere RevisionJob.liveKey,
    .check fun job => decide (job.idempotencyFingerprint.length ≤ 64)]

/-- The tables hold together. -/
structure Consistent (s : RevisionStore) : Prop where
  chunks : (s.chunks.map ScriptChunk.id).Nodup
  jobs : processingJob.Holds s

/-! ## The Request -/

/-- Why a request raises. -/
inductive ReviseError
  | violation (v : Violation)
  | validation (code message : String)
  deriving DecidableEq

instance : OfViolation ReviseError := ⟨.violation⟩

abbrev ReviseTx := Transaction RevisionStore ReviseError

def RevisionStore.requested (s : RevisionStore) (bookId : Id) (body : ReviseDirectorBody) :
    List ScriptChunk :=
  s.chunks.filter fun c =>
    decide (c.id ∈ body.chunkIds.map UuidText.value ∧ c.bookId = bookId ∧ c.isCurrent = true)

def directorVersion (body : ReviseDirectorBody) (first : ScriptChunk) : Text :=
  body.directorVersion.getD first.directorVersion

def idempotencyKey (body : ReviseDirectorBody) (first : ScriptChunk) : Text :=
  "revise_director:".toList ++ first.audioScriptId ++ ":".toList ++
    body.revisionReason.name.toList ++ ":".toList ++ chunkIdSetHash body.chunkIds ++
    ":".toList ++ directorVersion body first

def revisionJob (jobId tenantId bookId : Id) (body : ReviseDirectorBody) (first : ScriptChunk) :
    RevisionJob where
  id := jobId
  tenantId := tenantId
  bookId := bookId
  relatedResourceId := first.audioScriptId
  chunkIds := body.chunkIds
  revisionReason := body.revisionReason
  directorVersion := directorVersion body first
  idempotencyKey := idempotencyKey body first
  idempotencyFingerprint := chunkIdSetHash body.chunkIds

def createJob (jobId tenantId bookId : Id) (body : ReviseDirectorBody) :
    List ScriptChunk → ReviseTx RevisionJob
  | [] =>
      throw (.validation "VALIDATION_FAILED"
        "None of the requested chunk_ids belong to this book.")
  | first :: _ => do
      processingJob.insert (revisionJob jobId tenantId bookId body first)
      return revisionJob jobId tenantId bookId body first

/-- `reviseDirector`, with the id that `generateId` draws. -/
def reviseDirector (jobId tenantId bookId : Id) (body : ReviseDirectorBody) :
    ReviseTx RevisionJob := do
  let s ← get
  createJob jobId tenantId bookId body (s.requested bookId body)

/-! ## The Run of a Job -/

/-- What a run makes of a chunk: it leaves it out, or builds it again. -/
inductive ChunkOutcome
  | skipped
  | built (newId : Id)

/-- The rows that `handle_revise_director_ir` leaves of a row: a locked chunk is superseded, any
other is changed in place. -/
def RevisionJob.revise (job : RevisionJob) (outcome : Id → ChunkOutcome) (c : ScriptChunk) :
    List ScriptChunk :=
  if c.id ∈ job.chunkIds.map UuidText.value ∧ c.bookId = job.bookId ∧ c.isCurrent = true then
    match outcome c.id with
    | .skipped => [c]
    | .built newId =>
        if c.isLocked then
          [{ c with isCurrent := false },
            { c with id := newId, directorVersion := job.directorVersion, isLocked := false }]
        else [{ c with directorVersion := job.directorVersion }]
  else [c]

theorem mem_revise {job : RevisionJob} {outcome : Id → ChunkOutcome} {c old : ScriptChunk}
    (hc : c ∈ job.revise outcome old) :
    c.isCurrent = false ∨ (∃ newId, outcome old.id = .built newId ∧ c.id = newId) ∨
      (c.id = old.id ∧ c.audioScriptId = old.audioScriptId ∧
        (c.directorVersion = old.directorVersion ∨ c.directorVersion = job.directorVersion)) := by
  unfold RevisionJob.revise at hc
  split at hc
  case isFalse =>
    rw [List.mem_singleton.mp hc]
    exact .inr (.inr ⟨rfl, rfl, .inl rfl⟩)
  case isTrue =>
    split at hc
    case h_1 =>
      rw [List.mem_singleton.mp hc]
      exact .inr (.inr ⟨rfl, rfl, .inl rfl⟩)
    case h_2 newId hbuilt =>
      split at hc
      · rcases List.mem_cons.mp hc with rfl | hc
        · exact .inl rfl
        · rw [List.mem_singleton.mp hc]
          exact .inr (.inl ⟨newId, hbuilt, rfl⟩)
      · rw [List.mem_singleton.mp hc]
        exact .inr (.inr ⟨rfl, rfl, .inr rfl⟩)

/-- The store after a run of the job that succeeds. -/
structure Succeeded (job : RevisionJob) (s s' : RevisionStore) : Prop where
  jobs : s'.jobs = updateWhere (fun row => decide (row.id = job.id))
    (fun row => { row with status := .succeeded }) s.jobs
  chunks : ∃ outcome : Id → ChunkOutcome,
    (∀ id newId, outcome id = .built newId → newId ∉ s.chunks.map ScriptChunk.id) ∧
      s'.chunks = s.chunks.flatMap (job.revise outcome)

/-- A request is stored. -/
def Stores (jobId tenantId bookId : Id) (body : ReviseDirectorBody) (s : RevisionStore) : Prop :=
  ∃ job s', reviseDirector jobId tenantId bookId body s = .ok (job, s')

/-- A revision request is stored, its fingerprint belongs to no other list of chunks, and it is stored
again after the job has succeeded. -/
structure Admissible (jobId tenantId bookId : Id) (body : ReviseDirectorBody) (s : RevisionStore) :
    Prop where
  stored : Stores jobId tenantId bookId body s
  identified : ∀ ids : List UuidText, ids ≠ [] →
    chunkIdSetHash ids = chunkIdSetHash body.chunkIds → ids.Perm body.chunkIds
  repeated : ∀ job s' s'', reviseDirector jobId tenantId bookId body s = .ok (job, s') →
    Succeeded job s' s'' → ∃ jobId', Stores jobId' tenantId bookId body s''

section Requests

variable {jobId tenantId bookId : Id} {body : ReviseDirectorBody} {s s' s'' : RevisionStore}
  {job : RevisionJob}

@[simp]
theorem liveKey_revisionJob (first : ScriptChunk) :
    (revisionJob jobId tenantId bookId body first).liveKey =
      some (tenantId, idempotencyKey body first) := rfl

theorem reviseDirector_eq_ok_iff :
    reviseDirector jobId tenantId bookId body s = .ok (job, s') ↔
      ∃ first rest, s.requested bookId body = first :: rest ∧
        job = revisionJob jobId tenantId bookId body first ∧
        processingJob.Accepts (s.jobs ++ [job]) ∧ s' = { s with jobs := s.jobs ++ [job] } := by
  change createJob jobId tenantId bookId body (s.requested bookId body) s = _ ↔ _
  cases hrequested : s.requested bookId body with
  | nil =>
    constructor
    · intro h
      cases h
    · rintro ⟨first, rest, h, -⟩
      cases h
  | cons first rest =>
    rw [createJob, Transaction.bind_eq_ok_iff]
    constructor
    · rintro ⟨_, s₁, hinsert, h⟩
      obtain ⟨rfl, rfl⟩ := Transaction.pure_eq_ok_iff.mp h
      obtain ⟨haccepts, rfl⟩ := processingJob.insert_eq_ok_iff.mp hinsert
      exact ⟨first, rest, rfl, rfl, haccepts, rfl⟩
    · rintro ⟨first', rest', h, rfl, haccepts, rfl⟩
      cases h
      exact ⟨(), _, processingJob.insert_eq_ok_iff.mpr ⟨haccepts, rfl⟩,
        Transaction.pure_eq_ok_iff.mpr ⟨rfl, rfl⟩⟩

theorem accepts_iff {rows : List RevisionJob} :
    processingJob.Accepts rows ↔ UniqueWhere (fun row : RevisionJob => some row.id) rows ∧
      UniqueWhere RevisionJob.liveKey rows ∧
        ∀ row ∈ rows, row.idempotencyFingerprint.length ≤ 64 := by
  simp [Table.Accepts, processingJob]

theorem accepts_concat_iff (job : RevisionJob) (hs : processingJob.Holds s)
    (hfresh : job.id ∉ s.jobs.map RevisionJob.id) :
    processingJob.Accepts (s.jobs ++ [job]) ↔
      (∀ key, job.liveKey = some key → ∀ row ∈ s.jobs, row.liveKey ≠ some key) ∧
        job.idempotencyFingerprint.length ≤ 64 := by
  obtain ⟨hids, hkeys, hlengths⟩ := accepts_iff.mp hs
  rw [accepts_iff, uniqueWhere_concat_iff, uniqueWhere_concat_iff]
  constructor
  · rintro ⟨-, ⟨-, hkey⟩, hlength⟩
    exact ⟨hkey, hlength job (by simp)⟩
  · rintro ⟨hkey, hlength⟩
    refine ⟨⟨hids, fun id hid row hrow heq => ?_⟩, ⟨hkeys, hkey⟩, fun row hrow => ?_⟩
    · cases hid
      exact hfresh (List.mem_map.mpr ⟨row, hrow, Option.some.inj heq⟩)
    · rcases List.mem_append.mp hrow with hrow | hrow
      · exact hlengths row hrow
      · cases List.mem_singleton.mp hrow
        exact hlength

theorem reviseDirector_stores_iff {first : ScriptChunk} {rest : List ScriptChunk}
    (hs : Consistent s) (hfresh : jobId ∉ s.jobs.map RevisionJob.id)
    (hfirst : s.requested bookId body = first :: rest) :
    Stores jobId tenantId bookId body s ↔ body.chunkIds.length = 1 ∧
      ∀ row ∈ s.jobs, row.liveKey ≠ some (tenantId, idempotencyKey body first) := by
  have haccepts := accepts_concat_iff (revisionJob jobId tenantId bookId body first) hs.jobs hfresh
  rw [liveKey_revisionJob, show (revisionJob jobId tenantId bookId body
    first).idempotencyFingerprint = chunkIdSetHash body.chunkIds from rfl,
    length_chunkIdSetHash_le_iff body.minItems] at haccepts
  constructor
  · rintro ⟨job, s', h⟩
    obtain ⟨first', rest', hfirst', rfl, hok, -⟩ := reviseDirector_eq_ok_iff.mp h
    cases hfirst.symm.trans hfirst'
    obtain ⟨hkey, hlength⟩ := haccepts.mp hok
    exact ⟨hlength, hkey _ rfl⟩
  · rintro ⟨hlength, hkey⟩
    refine ⟨_, _, reviseDirector_eq_ok_iff.mpr ⟨first, rest, hfirst, rfl, haccepts.mpr ⟨?_, hlength⟩,
      rfl⟩⟩
    intro key heq
    cases heq
    exact hkey

theorem directorVersion_eq {first c : ScriptChunk}
    (h : c.directorVersion = first.directorVersion ∨
      c.directorVersion = directorVersion body first) :
    directorVersion body c = directorVersion body first := by
  unfold directorVersion at h ⊢
  cases hbody : body.directorVersion with
  | some version => rfl
  | none =>
    rw [hbody] at h
    rcases h with h | h
    · exact h
    · exact h

theorem sameKey_of_succeeded {first c : ScriptChunk} {chunkId : UuidText}
    (hids : body.chunkIds = [chunkId]) (hnodup : (s.chunks.map ScriptChunk.id).Nodup)
    (hfirst : first ∈ s.requested bookId body)
    (hrun : Succeeded (revisionJob jobId tenantId bookId body first) s' s'')
    (hchunks : s'.chunks = s.chunks) (hc : c ∈ s''.requested bookId body) :
    idempotencyKey body c = idempotencyKey body first := by
  obtain ⟨outcome, hnew, hflat⟩ := hrun.chunks
  rw [hchunks] at hnew hflat
  simp only [RevisionStore.requested, hids, List.mem_filter, List.map_cons, List.map_nil,
    List.mem_singleton, decide_eq_true_eq] at hfirst hc
  obtain ⟨hmem, hid, -⟩ := hfirst
  obtain ⟨hcmem, hcid, -, hcurrent⟩ := hc
  rw [hflat] at hcmem
  obtain ⟨old, hold, hc⟩ := List.mem_flatMap.mp hcmem
  rcases mem_revise hc with hretired | ⟨newId, hbuilt, hcnew⟩ | ⟨hsame, hscript, hversion⟩
  · exact absurd (hcurrent.symm.trans hretired) (by decide)
  · -- the id of a new version is none that the request names
    have hname : newId = first.id := by rw [← hcnew, hcid, hid]
    exact absurd (List.mem_map.mpr ⟨first, hmem, hname.symm⟩) (hnew old.id newId hbuilt)
  -- the row that is left is that of the chunk, whose script is never changed
  · have heq : old = first :=
      List.inj_on_of_nodup_map hnodup hold hmem (hsame.symm.trans (hcid.trans hid.symm))
    rw [heq] at hscript hversion
    have hdirector : directorVersion body c = directorVersion body first :=
      directorVersion_eq hversion
    unfold idempotencyKey
    rw [hscript, hdirector]

theorem reviseDirector_of_succeeded {jobId' : Id} (hs : Consistent s)
    (h : reviseDirector jobId tenantId bookId body s = .ok (job, s')) (hrun : Succeeded job s' s'') :
    ¬ Stores jobId' tenantId bookId body s'' := by
  rintro ⟨job', s₃, h'⟩
  obtain ⟨first, rest, hfirst, rfl, haccepts, rfl⟩ := reviseDirector_eq_ok_iff.mp h
  obtain ⟨first', rest', hfirst', rfl, haccepts', -⟩ := reviseDirector_eq_ok_iff.mp h'
  -- what was stored was for one chunk
  have hlength : (chunkIdSetHash body.chunkIds).length ≤ 64 :=
    (accepts_iff.mp haccepts).2.2 _ (List.mem_append_right _ (List.mem_singleton_self _))
  obtain ⟨chunkId, hids⟩ :=
    List.length_eq_one_iff.mp ((length_chunkIdSetHash_le_iff body.minItems).mp hlength)
  have hkey := sameKey_of_succeeded hids hs.chunks (hfirst ▸ List.mem_cons_self) hrun rfl
    (hfirst' ▸ List.mem_cons_self)
  -- the row of the job keeps its key
  obtain ⟨-, hunique⟩ := uniqueWhere_concat_iff.mp (accepts_iff.mp haccepts').2.1
  refine hunique (tenantId, idempotencyKey body first') rfl
    { revisionJob jobId tenantId bookId body first with status := .succeeded } ?_ ?_
  · rw [hrun.jobs]
    exact mem_updateWhere.mpr (.inl ⟨_, List.mem_append_right _ (List.mem_singleton_self _),
      decide_eq_true rfl, rfl⟩)
  · rw [hkey]
    rfl

theorem succeeded_skipped (job : RevisionJob) (s : RevisionStore) :
    Succeeded job s
      { s with
        jobs := updateWhere (fun row => decide (row.id = job.id))
          (fun row => { row with status := .succeeded }) s.jobs } where
  jobs := rfl
  chunks := by
    refine ⟨fun _ => .skipped, fun _ _ h => (by cases h), ?_⟩
    have hrevise : job.revise (fun _ => .skipped) = fun c => [c] := by
      funext c
      unfold RevisionJob.revise
      split <;> rfl
    rw [hrevise]
    exact (List.flatMap_singleton' s.chunks).symm

theorem Admissible.false (hs : Consistent s)
    (h : Admissible jobId tenantId bookId body s) : False := by
  obtain ⟨job, s', hstored⟩ := h.stored
  have hrun := succeeded_skipped job s'
  obtain ⟨jobId', hagain⟩ := h.repeated job s' _ hstored hrun
  exact reviseDirector_of_succeeded hs hstored hrun hagain

variable (jobId tenantId bookId body) in
/-- No request that finds a chunk of the book is admissible: more than one chunk does not fit the
fingerprint, and the key of one chunk stays taken. The fingerprint belongs to no other list. -/
theorem reviseDirector_inadmissible (hs : Consistent s)
    (hfresh : jobId ∉ s.jobs.map RevisionJob.id) (hfound : s.requested bookId body ≠ []) :
    ¬ Admissible jobId tenantId bookId body s ∧
      (∀ first ∈ (s.requested bookId body).head?,
        (Stores jobId tenantId bookId body s ↔ body.chunkIds.length = 1 ∧
          ∀ row ∈ s.jobs, row.liveKey ≠ some (tenantId, idempotencyKey body first))) ∧
      (∀ ids : List UuidText, ids ≠ [] → chunkIdSetHash ids = chunkIdSetHash body.chunkIds →
        ids.Perm body.chunkIds) ∧
      ∀ job s' s'' jobId', reviseDirector jobId tenantId bookId body s = .ok (job, s') →
        Succeeded job s' s'' → ¬ Stores jobId' tenantId bookId body s'' := by
  refine ⟨fun h => h.false hs, fun first hfirst => ?_, fun ids hids => chunkIdSetHash_inj hids
    body.minItems, fun job s' s'' jobId' hstored hrun => reviseDirector_of_succeeded hs hstored hrun⟩
  obtain ⟨c, rest, hrequested⟩ := List.exists_cons_of_ne_nil hfound
  rw [hrequested] at hfirst
  cases hfirst
  exact reviseDirector_stores_iff hs hfresh hrequested

end Requests

/-! ## Two Requests -/

def chunkId : UuidText where
  text := "0190a1b2-0000-7000-8000-000000000001".toList
  isUuid := by decide +kernel

/-- The id of another chunk, which no book has. -/
def strangeId : UuidText where
  text := "urn:uuid:0190A1B2-0000-7000-8000-000000000002".toList
  isUuid := by decide +kernel

def editedChunks (chunkIds : List UuidText) (minItems : chunkIds ≠ [])
    (maxItems : chunkIds.length ≤ 500) : ReviseDirectorBody where
  chunkIds
  revisionReason := .userEdit
  minItems
  maxItems
  versionLength := by simp

def oneChunk : RevisionStore where
  chunks := [{
    id := chunkId.value
    bookId := 1
    audioScriptId := "0190a1b2-0000-7000-8000-0000000000aa".toList
    directorVersion := "director-1".toList }]

theorem consistent_oneChunk : Consistent oneChunk where
  chunks := List.nodup_singleton _
  jobs := by decide

/-- The request for the chunk of the book is stored once, and not again. -/
theorem reviseDirector_inadmissible_oneChunk :
    Stores 7 5 1 (editedChunks [chunkId] (by decide) (by decide)) oneChunk ∧
      ¬ Admissible 7 5 1 (editedChunks [chunkId] (by decide) (by decide)) oneChunk := by
  obtain ⟨hnot, hstores, -⟩ := reviseDirector_inadmissible 7 5 1
    (editedChunks [chunkId] (by decide) (by decide)) consistent_oneChunk (by decide)
    (by decide +kernel)
  exact ⟨(hstores _ rfl).mpr ⟨rfl, by decide⟩, hnot⟩

/-- With a second id, which is of no chunk, the request is not even stored. -/
theorem not_forall_admissible :
    ¬ ∀ (jobId tenantId bookId : Id) (body : ReviseDirectorBody) (s : RevisionStore),
      Consistent s → jobId ∉ s.jobs.map RevisionJob.id → s.requested bookId body ≠ [] →
        Admissible jobId tenantId bookId body s := by
  intro h
  exact (h 7 5 1 (editedChunks [chunkId, strangeId] (by decide) (by decide)) oneChunk
    consistent_oneChunk (by decide) (by decide +kernel)).false consistent_oneChunk

end AudioBook.RevisionRequests
