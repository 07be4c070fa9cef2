import AudioBook.Director.Writes
import AudioBook.Ingestion.Persist
import AudioBook.Schema.Constraints

/-!
# Replacing a Current Row Under a Unique Index

Three operations replace the row that is current for a key: finalizing a script, revising a
chunk, and storing a new version of a book. Each of them makes the new row current before it
retires the old one, and the partial unique index on the current rows is checked in between.

Main results:

- `Replacement.swaps_iff_unobstructed`: in every consistent store the operation succeeds exactly
  when it is unobstructed.
-/

namespace AudioBook

open Relational

/-- An operation that replaces the current row of a key. -/
inductive Replacement
  | finalizeScript (audioScriptId bookId : Id) (coverage : CoverageResult)
  /-- The write of `handle_revise_director_ir` for one chunk. -/
  | reviseChunk (row : AudioScriptChunk) (newChunkId : Id) (built : BuiltChunk)
  /-- The transaction of `persistIngestionResult`. -/
  | persistVersion (jobId bookId : Id) (version : ℕ) (result : IngestionResult)

/-- The declared constraints hold for every table that a replacement writes. -/
structure Consistent (s : Store) : Prop where
  processingJob : Db.processingJob.Holds s
  book : Db.book.Holds s
  bookVersion : Db.bookVersion.Holds s
  chapter : Db.chapter.Holds s
  paragraph : Db.paragraph.Holds s
  audioScript : Db.audioScript.Holds s
  audioScriptChunk : Db.audioScriptChunk.Holds s

/-- Ids that `generateId` will hand out belong to no row yet. -/
structure FreshIds (s : Store) : Prop where
  bookVersion : ∀ v ∈ s.bookVersions, v.id < s.nextId
  chapter : ∀ c ∈ s.chapters, c.id < s.nextId ∧ c.bookVersionId < s.nextId
  paragraph : ∀ p ∈ s.paragraphs, p.id < s.nextId ∧ p.bookVersionId < s.nextId

/-- Exactly one row is current for the key `k`, and for every key that had exactly one. -/
def OneCurrent {ρ κ : Type} [DecidableEq κ] (key : ρ → Option κ) (k : κ) (rows rows' : List ρ) :
    Prop :=
  ∀ k', k' = k ∨ occupancy key k' rows = 1 → occupancy key k' rows' = 1

private theorem oneCurrent_of_kept {ρ κ : Type} [DecidableEq κ] {key : ρ → Option κ} {k : κ}
    {rows rows' : List ρ} (h : UniqueWhere key rows) (h' : UniqueWhere key rows')
    (hk : ∃ r ∈ rows', key r = some k)
    (hkept : ∀ r ∈ rows, ∀ k', key r = some k' → ∃ r' ∈ rows', key r' = some k') :
    OneCurrent key k rows rows' := by
  rintro k' (rfl | hone)
  · exact (occupancy_eq_one_iff h').mpr hk
  · obtain ⟨r, hr, hkey⟩ := (occupancy_eq_one_iff h).mp hone
    exact (occupancy_eq_one_iff h').mpr (hkept r hr k' hkey)

namespace Replacement

def run : Replacement → Tx Unit
  | finalizeScript audioScriptId bookId coverage =>
      finalizeAudioScript audioScriptId bookId coverage
  | reviseChunk row newChunkId built => AudioBook.reviseChunk row newChunkId built
  | persistVersion jobId bookId version result => do
      let _ ← persistIngestionResult jobId bookId version result

/-- The operation is called as its caller calls it: on rows that exist, with new ids. -/
def Admissible : Replacement → Store → Prop
  | finalizeScript audioScriptId bookId _, s =>
      ∃ script ∈ s.audioScripts, script.id = audioScriptId ∧ script.bookId = bookId
  | reviseChunk row newChunkId _, s =>
      row ∈ s.audioScriptChunks ∧ row.isCurrent ∧
        newChunkId ∉ s.audioScriptChunks.map AudioScriptChunk.id
  | persistVersion jobId bookId version _, s =>
      (∃ job ∈ s.processingJobs, job.id = jobId ∧ job.status = .running) ∧ FreshIds s ∧
        ∀ v ∈ s.bookVersions, v.bookId = bookId → v.version ≠ version

/-- Nothing stands in the way of the operation. -/
def Unobstructed : Replacement → Store → Prop
  | finalizeScript audioScriptId bookId coverage, s =>
      (coverage.verified ∧ coverage.gapCount = 0 ∧ coverage.overlapCount = 0) ∧
        ∀ script ∈ s.audioScripts, script.bookId = bookId → script.id ≠ audioScriptId →
          script.isCurrent = false
  | reviseChunk row _ built, _ =>
      row.state ≠ .locked ∧ (built.speakerType = .character → built.characterId.isSome) ∧
        (0 < row.text.length ∨ built.nonVerbal)
  | persistVersion _ bookId _ result, s =>
      if (findExistingVersion bookId result s).isSome then
        ∃ v ∈ s.bookVersions, v.bookId = bookId ∧ v.isCurrent
      else ∀ v ∈ s.bookVersions, v.bookId = bookId → v.isCurrent = false

/-- One row is current for the key of the operation afterwards, and for every key of its table
that had one before. -/
def LeavesOneCurrent : Replacement → Store → Store → Prop
  | finalizeScript _ bookId _, s, s' =>
      OneCurrent Db.audioScriptCurrentKey bookId s.audioScripts s'.audioScripts
  | reviseChunk row _ _, s, s' =>
      OneCurrent Db.chunkSequenceCurrentKey (row.audioScriptId, row.sequenceIndex)
        s.audioScriptChunks s'.audioScriptChunks
  | persistVersion _ bookId _ _, s, s' =>
      OneCurrent Db.bookVersionCurrentKey bookId s.bookVersions s'.bookVersions

/-- The operation commits and leaves one current row per key. -/
def Swaps (op : Replacement) (s : Store) : Prop :=
  ∃ s', op.run s = .ok ((), s') ∧ op.LeavesOneCurrent s s'

end Replacement

/-! ## Finalizing a Script -/

section finalize

variable {s s' : Store} {audioScriptId bookId : Id} {coverage : CoverageResult}

/-- The first statement of `finalizeAudioScript` on a script. -/
private def validatedScript (coverage : CoverageResult) (script : AudioScript) : AudioScript :=
  { script with
    state := .validated
    isCurrent := true
    coverageVerified := coverage.verified
    coverageGapCount := coverage.gapCount
    coverageOverlapCount := coverage.overlapCount }

private theorem accepts_validatedScript_iff (hs : Db.audioScript.Holds s)
    (hscript : ∃ script ∈ s.audioScripts, script.id = audioScriptId ∧ script.bookId = bookId) :
    Db.audioScript.Accepts (updateWhere (fun script => decide (script.id = audioScriptId))
        (validatedScript coverage) s.audioScripts) ↔
      (Replacement.finalizeScript audioScriptId bookId coverage).Unobstructed s := by
  have hok := Db.audioScript_accepts_iff.mp hs
  obtain ⟨script, hmem, hid, hbook⟩ := hscript
  have hsame : ∀ r ∈ s.audioScripts, r.id = audioScriptId → r = script := fun r hr hri =>
    List.inj_on_of_nodup_map hok.id hr hmem (hri.trans hid.symm)
  have hcurrent := uniqueWhere_updateWhere_iff (i := audioScriptId)
    (f := validatedScript coverage) hok.id (fun _ => rfl) hok.current
  have hbranch : (∀ r₀ ∈ s.audioScripts, r₀.id = audioScriptId → ∀ r ∈ s.audioScripts,
      r.id ≠ audioScriptId → ∀ k, Db.audioScriptCurrentKey (validatedScript coverage r₀) = some k →
        Db.audioScriptCurrentKey r ≠ some k) ↔
      ∀ r ∈ s.audioScripts, r.bookId = bookId → r.id ≠ audioScriptId → r.isCurrent = false := by
    constructor
    · intro h r hr hrb hri
      have := h script hmem hid r hr hri bookId (by
        simp [Db.audioScriptCurrentKey, validatedScript, hbook])
      simpa [Db.audioScriptCurrentKey, hrb] using this
    · intro h r₀ hr₀ hr₀i r hr hri k hk hk'
      obtain rfl := hsame r₀ hr₀ hr₀i
      simp only [Db.audioScriptCurrentKey, validatedScript, if_true, Option.some.injEq] at hk
      simp only [Db.audioScriptCurrentKey, Option.ite_none_right_eq_some, Option.some.injEq] at hk'
      have := h r hr (by rw [hk'.2, ← hk, hbook]) hri
      simp [this] at hk'
  rw [Db.audioScript_accepts_iff]
  constructor
  · intro h
    refine ⟨?_, hbranch.mp (hcurrent.mp h.current)⟩
    have := h.coverage (validatedScript coverage script)
      (mem_updateWhere.mpr (.inl ⟨script, hmem, by simpa using hid, rfl⟩))
    simpa [Db.coverageInvariant, validatedScript] using this
  · rintro ⟨hcov, hother⟩
    exact {
      id := nodup_map_updateWhere hok.id fun _ => rfl
      version := nodup_map_updateWhere hok.version fun _ => rfl
      current := hcurrent.mpr (hbranch.mpr hother)
      coverage := forall_mem_updateWhere hok.coverage fun _ _ _ => by
        simpa [Db.coverageInvariant, validatedScript] using hcov
      supersedes := hok.supersedes.updateWhere (fun _ => rfl) fun r hr _ => hok.supersedes r hr
      supersededBy := hok.supersededBy.updateWhere (fun _ => rfl) fun r hr _ =>
        hok.supersededBy r hr }

private theorem finalizeAudioScript_eq_ok (hs : Consistent s)
    (hadm : (Replacement.finalizeScript audioScriptId bookId coverage).Admissible s)
    (hfree : (Replacement.finalizeScript audioScriptId bookId coverage).Unobstructed s) :
    ∃ s', finalizeAudioScript audioScriptId bookId coverage s = .ok ((), s') ∧
      s'.audioScripts = updateWhere (fun script => decide (script.id = audioScriptId))
        (validatedScript coverage) s.audioScripts := by
  have hacc := (accepts_validatedScript_iff hs.audioScript hadm).mpr hfree
  rw [finalizeAudioScript]
  have hvalidate := (Table.update_eq_ok_iff (ε := Fault) Db.audioScript).mpr ⟨hacc, rfl⟩
  refine ⟨_, (Transaction.bind_eq_of_ok hvalidate).trans
    ((Transaction.bind_eq_of_ok (Table.update_eq_ok_of_no_match _ ?_ ?_ rfl)).trans
      (Table.update_eq_ok_iff _ |>.mpr ⟨?_, rfl⟩)), rfl⟩
  · exact hacc
  · -- A script that the second statement could retire would have been an obstruction.
    intro r hr
    rcases mem_updateWhere.mp hr with ⟨r₀, -, hr₀, rfl⟩ | ⟨hr, -⟩
    · have hi : r₀.id = audioScriptId := by simpa using hr₀
      simp [validatedScript, hi]
    · simpa using fun hb hi => hfree.2 r hr hb hi
  · exact Db.book_accepts_iff.mpr
      (nodup_map_updateWhere (Db.book_accepts_iff.mp hs.book) fun _ => rfl)

theorem finalizeScript_swaps_iff (hs : Consistent s)
    (hadm : (Replacement.finalizeScript audioScriptId bookId coverage).Admissible s) :
    (Replacement.finalizeScript audioScriptId bookId coverage).Swaps s ↔
      (Replacement.finalizeScript audioScriptId bookId coverage).Unobstructed s := by
  rw [← accepts_validatedScript_iff hs.audioScript hadm]
  constructor
  · rintro ⟨s', hrun, -⟩
    obtain ⟨_, s₁, hfirst, -⟩ := Transaction.bind_eq_ok_iff.mp hrun
    exact ((Table.update_eq_ok_iff _).mp hfirst).1
  · intro hacc
    have hfree := (accepts_validatedScript_iff hs.audioScript hadm).mp hacc
    obtain ⟨s', hrun, hrows⟩ := finalizeAudioScript_eq_ok hs hadm hfree
    refine ⟨s', hrun, ?_⟩
    change OneCurrent _ _ s.audioScripts s'.audioScripts
    rw [hrows]
    obtain ⟨script, hmem, hid, hbook⟩ := hadm
    refine oneCurrent_of_kept (Db.audioScript_accepts_iff.mp hs.audioScript).current
      (Db.audioScript_accepts_iff.mp hacc).current ?_ ?_
    · exact ⟨validatedScript coverage script,
        mem_updateWhere.mpr (.inl ⟨script, hmem, by simpa using hid, rfl⟩),
        by simp [Db.audioScriptCurrentKey, validatedScript, hbook]⟩
    · intro r hr k hkey
      by_cases hri : r.id = audioScriptId
      · refine ⟨validatedScript coverage r,
          mem_updateWhere.mpr (.inl ⟨r, hr, by simpa using hri, rfl⟩), ?_⟩
        simp only [Db.audioScriptCurrentKey, Option.ite_none_right_eq_some] at hkey
        simpa [Db.audioScriptCurrentKey, validatedScript] using hkey.2
      · exact ⟨r, mem_updateWhere.mpr (.inr ⟨hr, by simpa using hri⟩), hkey⟩

end finalize

/-! ## Revising a Chunk -/

section revise

variable {s : Store} {row : AudioScriptChunk} {newChunkId : Id} {built : BuiltChunk}

private theorem not_swaps_of_locked (hadm : (Replacement.reviseChunk row newChunkId built).Admissible s)
    (hlocked : row.state = .locked) : ¬ (Replacement.reviseChunk row newChunkId built).Swaps s := by
  rintro ⟨s', hrun, -⟩
  obtain ⟨hmem, hcurrent, -⟩ := hadm
  rw [Replacement.run, reviseChunk, if_pos hlocked] at hrun
  obtain ⟨_, s₁, hinsertChunks, -⟩ := Transaction.bind_eq_ok_iff.mp hrun
  obtain ⟨_, s₂, hinsert, -⟩ := Transaction.bind_eq_ok_iff.mp hinsertChunks
  have hacc := ((Table.insert_eq_ok_iff _).mp hinsert).1
  have hsequence := (Db.audioScriptChunk_accepts_iff.mp hacc).sequence
  refine (uniqueWhere_concat_iff.mp hsequence).2 (row.audioScriptId, row.sequenceIndex) ?_ row hmem ?_
  · simp [Db.chunkSequenceCurrentKey, BuiltChunk.toRow]
  · simp [Db.chunkSequenceCurrentKey, hcurrent]

private theorem updateChunkInPlace_eq_ok_iff {s' : Store} (hs : Db.audioScriptChunk.Holds s)
    (hmem : row ∈ s.audioScriptChunks) :
    updateChunkInPlace row.id built s = .ok ((), s') ↔
      ((built.speakerType = .character → built.characterId.isSome) ∧
        (0 < row.text.length ∨ built.nonVerbal)) ∧
      s' = { s with
        audioScriptChunks := updateWhere (fun chunk => decide (chunk.id = row.id)) built.rebind
          s.audioScriptChunks } := by
  rw [updateChunkInPlace, Table.update_eq_ok_iff]
  refine and_congr_left fun _ => ?_
  have hok := Db.audioScriptChunk_accepts_iff.mp hs
  have hsame : ∀ r ∈ s.audioScriptChunks, r.id = row.id → r = row := fun r hr hri =>
    List.inj_on_of_nodup_map hok.id hr hmem hri
  rw [Db.audioScriptChunk_accepts_iff]
  constructor
  · intro h
    have hnew : built.rebind row ∈ updateWhere (fun chunk => decide (chunk.id = row.id))
        built.rebind s.audioScriptChunks :=
      mem_updateWhere.mpr (.inl ⟨row, hmem, decide_eq_true rfl, rfl⟩)
    exact ⟨h.speaker _ hnew, h.text _ hnew⟩
  · rintro ⟨hspeaker, htext⟩
    exact {
      id := nodup_map_updateWhere hok.id fun _ => rfl
      sequence := hok.sequence.updateWhere_of_retire fun _ _ _ => .inr rfl
      speaker := forall_mem_updateWhere hok.speaker fun _ _ _ => hspeaker
      locked := forall_mem_updateWhere hok.locked fun _ _ _ hstate => nomatch hstate
      text := forall_mem_updateWhere hok.text fun r hr hri => by
        obtain rfl := hsame r hr (by simpa using hri)
        exact htext
      supersedes := hok.supersedes.updateWhere (fun _ => rfl) fun r hr _ => hok.supersedes r hr
      supersededBy := hok.supersededBy.updateWhere (fun _ => rfl) fun r hr _ =>
        hok.supersededBy r hr }

theorem reviseChunk_swaps_iff (hs : Consistent s)
    (hadm : (Replacement.reviseChunk row newChunkId built).Admissible s) :
    (Replacement.reviseChunk row newChunkId built).Swaps s ↔
      (Replacement.reviseChunk row newChunkId built).Unobstructed s := by
  by_cases hlocked : row.state = .locked
  · exact iff_of_false (not_swaps_of_locked hadm hlocked) fun h => h.1 hlocked
  obtain ⟨hmem, hcurrent, -⟩ := hadm
  have hrun : (Replacement.reviseChunk row newChunkId built).run = updateChunkInPlace row.id built := by
    rw [Replacement.run, reviseChunk, if_neg hlocked]
  constructor
  · rintro ⟨s', hcommit, -⟩
    rw [hrun] at hcommit
    exact ⟨hlocked, ((updateChunkInPlace_eq_ok_iff hs.audioScriptChunk hmem).mp hcommit).1⟩
  · rintro ⟨-, hchecks⟩
    refine ⟨_, hrun ▸ (updateChunkInPlace_eq_ok_iff hs.audioScriptChunk hmem).mpr ⟨hchecks, rfl⟩, ?_⟩
    -- A revision in place writes no column of the index.
    have hkeys := (Db.audioScriptChunk_accepts_iff.mp hs.audioScriptChunk).sequence
    rintro k hk
    have hsame : (updateWhere (fun chunk => decide (chunk.id = row.id)) built.rebind
        s.audioScriptChunks).filterMap Db.chunkSequenceCurrentKey =
          s.audioScriptChunks.filterMap Db.chunkSequenceCurrentKey :=
      filterMap_updateWhere _ fun _ _ _ => rfl
    rw [occupancy, hsame, ← occupancy]
    rcases hk with rfl | hone
    · refine (occupancy_eq_one_iff hkeys).mpr ⟨row, hmem, ?_⟩
      simp [Db.chunkSequenceCurrentKey, hcurrent]
    · exact hone

end revise

/-! ## Storing a Version -/

section persist

variable {s s' : Store} {jobId bookId : Id} {version : ℕ} {result : IngestionResult}

private theorem markSucceeded_eq_ok (hs : Db.processingJob.Holds s)
    (hjob : ∃ job ∈ s.processingJobs, job.id = jobId ∧ job.status = .running) :
    ∃ jobs, markSucceeded jobId s = .ok ((), { s with processingJobs := jobs }) := by
  have hok := Db.processingJob_accepts_iff.mp hs
  obtain ⟨job, hmem, hid, hrunning⟩ := hjob
  have hfound : (findJob jobId s).isSome := by
    rw [findJob, List.find?_isSome]
    exact ⟨job, hmem, by simpa using hid⟩
  refine ⟨_, updateJob_eq_ok_iff.mpr ⟨hfound, ?_, rfl⟩⟩
  have hsame : ∀ r ∈ s.processingJobs, r.id = jobId → r = job := fun r hr hri =>
    List.inj_on_of_nodup_map hok.id hr hmem (hri.trans hid.symm)
  exact Db.processingJob_accepts_iff.mpr {
    id := nodup_map_updateWhere hok.id fun _ => rfl
    activeKey := hok.activeKey.updateWhere_of_retire fun r hr hri => .inr (by
      obtain rfl := hsame r hr (by simpa using hri)
      simp [ProcessingJob.activeIdempotencyKey, hrunning])
    attemptCount := forall_mem_updateWhere hok.attemptCount fun r hr _ => hok.attemptCount r hr
    errorCode := forall_mem_updateWhere hok.errorCode fun _ _ _ hfailed => by simp at hfailed
    parent := hok.parent.updateWhere (fun _ => rfl) fun r hr _ => hok.parent r hr }

private theorem accepts_newVersion_iff (hs : Db.bookVersion.Holds s)
    (hfresh : ∀ v ∈ s.bookVersions, v.id < s.nextId)
    (hversion : ∀ v ∈ s.bookVersions, v.bookId = bookId → v.version ≠ version)
    (hexisting : findExistingVersion bookId result s = none) :
    Db.bookVersion.Accepts (s.bookVersions ++ [newBookVersion s.nextId bookId version result]) ↔
      ∀ v ∈ s.bookVersions, v.bookId = bookId → v.isCurrent = false := by
  have hok := Db.bookVersion_accepts_iff.mp hs
  rw [Db.bookVersion_accepts_iff]
  constructor
  · intro h v hv hb
    have := (uniqueWhere_concat_iff.mp h.current).2 bookId (by
      simp [Db.bookVersionCurrentKey, newBookVersion]) v hv
    simpa [Db.bookVersionCurrentKey, hb] using this
  · intro hfree
    exact {
      id := by
        rw [← uniqueWhere_some, uniqueWhere_concat_iff, uniqueWhere_some]
        refine ⟨hok.id, ?_⟩
        rintro k hk v hv hvk
        simp only [newBookVersion, Option.some.injEq] at hk hvk
        exact absurd (hfresh v hv) (by rw [hvk, ← hk]; exact lt_irrefl _)
      version := by
        rw [← uniqueWhere_some, uniqueWhere_concat_iff, uniqueWhere_some]
        refine ⟨hok.version, ?_⟩
        rintro k hk v hv hvk
        simp only [newBookVersion, Option.some.injEq] at hk hvk
        rw [← hk, Prod.mk.injEq] at hvk
        exact hversion v hv hvk.1 hvk.2
      current := by
        refine uniqueWhere_concat_iff.mpr ⟨hok.current, ?_⟩
        rintro k hk v hv hvk
        simp only [Db.bookVersionCurrentKey, newBookVersion, if_true, Option.some.injEq] at hk
        simp only [Db.bookVersionCurrentKey, Option.ite_none_right_eq_some,
          Option.some.injEq] at hvk
        simp [hfree v hv (hvk.2.trans hk.symm)] at hvk
      content := by
        refine uniqueWhere_concat_iff.mpr ⟨hok.content, ?_⟩
        rintro k hk v hv hvk
        have hnone := List.find?_eq_none.mp hexisting v hv
        simp only [Db.bookVersionContentKey, newBookVersion, Bool.false_eq_true, if_false,
          Option.some.injEq] at hk
        simp only [Db.bookVersionContentKey, Option.ite_none_left_eq_some, Bool.not_eq_true,
          Option.some.injEq, ← hk, Prod.mk.injEq] at hvk
        simp [hvk] at hnone
      supersededBy := hok.supersededBy.concat fun i hi => by simp [newBookVersion] at hi }

private theorem persistIngestionResult_existing {existing : BookVersion} (version : ℕ)
    (hexisting : findExistingVersion bookId result s = some existing)
    (hs : Db.processingJob.Holds s)
    (hjob : ∃ job ∈ s.processingJobs, job.id = jobId ∧ job.status = .running) :
    ∃ jobs, persistIngestionResult jobId bookId version result s =
      .ok (existing.id, { s with processingJobs := jobs }) := by
  obtain ⟨jobs, hdone⟩ := markSucceeded_eq_ok hs hjob
  refine ⟨jobs, ?_⟩
  rw [persistIngestionResult, Transaction.bind_eq_of_ok rfl]
  simp only [hexisting]
  rw [Transaction.bind_eq_of_ok hdone]
  rfl

private theorem accepts_of_persistIngestionResult {i : Id}
    (hexisting : findExistingVersion bookId result s = none)
    (hrun : persistIngestionResult jobId bookId version result s = .ok (i, s')) :
    Db.bookVersion.Accepts (s.bookVersions ++ [newBookVersion s.nextId bookId version result]) := by
  rw [persistIngestionResult, Transaction.bind_eq_of_ok rfl] at hrun
  simp only [hexisting] at hrun
  rw [Transaction.bind_eq_of_ok rfl] at hrun
  obtain ⟨_, s₁, hinsert, -⟩ := Transaction.bind_eq_ok_iff.mp hrun
  exact ((Table.insert_eq_ok_iff _).mp hinsert).1

private theorem pointAtVersion_eq_ok (bookId bookVersionId : Id) (hbook : Db.book.Holds s)
    (hjobs : Db.processingJob.Holds s)
    (hjob : ∃ job ∈ s.processingJobs, job.id = jobId ∧ job.status = .running) :
    ∃ s', (do
      Db.book.update (fun book => decide (book.id = bookId)) fun book =>
        { book with currentBookVersionId := some bookVersionId }
      markSucceeded jobId
      return bookVersionId : Tx Id) s = .ok (bookVersionId, s') ∧
        s'.bookVersions = s.bookVersions := by
  have hbooks : ∃ s₁, (Db.book.update (fun book => decide (book.id = bookId)) fun book =>
      { book with currentBookVersionId := some bookVersionId } : Tx Unit) s = .ok ((), s₁) ∧
        s₁.processingJobs = s.processingJobs ∧ s₁.bookVersions = s.bookVersions :=
    ⟨_, (Table.update_eq_ok_iff _).mpr ⟨Db.book_accepts_iff.mpr
      (nodup_map_updateWhere (Db.book_accepts_iff.mp hbook) fun _ => rfl), rfl⟩, rfl, rfl⟩
  obtain ⟨s₁, hupdate, hsame, hversions⟩ := hbooks
  obtain ⟨jobs, hdone⟩ := markSucceeded_eq_ok
    (show Db.processingJob.Accepts s₁.processingJobs from hsame ▸ hjobs) (hsame.symm ▸ hjob)
  exact ⟨_, (Transaction.bind_eq_of_ok hupdate).trans
    ((Transaction.bind_eq_of_ok hdone).trans rfl), hversions⟩

private theorem persistIngestionResult_new
    (hexisting : findExistingVersion bookId result s = none) (hs : Consistent s)
    (hjob : ∃ job ∈ s.processingJobs, job.id = jobId ∧ job.status = .running)
    (hfresh : FreshIds s)
    (hacc : Db.bookVersion.Accepts (s.bookVersions ++ [newBookVersion s.nextId bookId version result])) :
    ∃ i s', persistIngestionResult jobId bookId version result s = .ok (i, s') ∧
      s'.bookVersions = s.bookVersions ++ [newBookVersion s.nextId bookId version result] := by
  have hfree : ∀ v ∈ s.bookVersions, v.bookId = bookId → v.isCurrent = false := by
    intro v hv hb
    have := (uniqueWhere_concat_iff.mp (Db.bookVersion_accepts_iff.mp hacc).current).2 bookId
      (by simp [Db.bookVersionCurrentKey, newBookVersion]) v hv
    simpa [Db.bookVersionCurrentKey, hb] using this
  obtain ⟨s₁, hstructure, hbooks, hjobs, hversions⟩ :
      ∃ s₁, persistStructure bookId s.nextId (numberChapters 0 0 result.chapters) { s with
          bookVersions := s.bookVersions ++ [newBookVersion s.nextId bookId version result]
          nextId := s.nextId + 1 } = .ok ((), s₁) ∧
        s₁.books = s.books ∧ s₁.processingJobs = s.processingJobs ∧
          s₁.bookVersions = s.bookVersions ++ [newBookVersion s.nextId bookId version result] :=
    ⟨_, persistStructure_eq_ok rfl rfl hs.chapter hs.paragraph
      (fun c hc => Nat.lt_succ_of_lt (hfresh.chapter c hc).1)
      (fun p hp => Nat.lt_succ_of_lt (hfresh.paragraph p hp).1)
      (fun c hc => (hfresh.chapter c hc).2.ne) (fun p hp => (hfresh.paragraph p hp).2.ne),
      rfl, rfl, rfl⟩
  have hinsert := (Table.insert_eq_ok_iff (ε := Fault) Db.bookVersion
    (s := { s with nextId := s.nextId + 1 })).mpr ⟨hacc, rfl⟩
  have hupdate := Table.update_eq_ok_of_no_match (ε := Fault) Db.bookVersion
    (p := fun v => decide (v.bookId = bookId ∧ v.isCurrent ∧ v.id ≠ s.nextId))
    (f := fun v => { v with
      isCurrent := false
      superseded := true
      supersededByBookVersionId := some s.nextId })
    (s := { s with
      bookVersions := s.bookVersions ++ [newBookVersion s.nextId bookId version result]
      nextId := s.nextId + 1 }) hacc ?_ rfl
  · obtain ⟨s', hpoint, hrows⟩ := pointAtVersion_eq_ok bookId s.nextId
      (show Db.book.Accepts s₁.books from hbooks ▸ hs.book)
      (show Db.processingJob.Accepts s₁.processingJobs from hjobs ▸ hs.processingJob)
      (hjobs ▸ hjob)
    refine ⟨s.nextId, s', ?_, ?_⟩
    · rw [persistIngestionResult, Transaction.bind_eq_of_ok rfl]
      simp only [hexisting]
      rw [Transaction.bind_eq_of_ok rfl]
      exact (Transaction.bind_eq_of_ok hinsert).trans ((Transaction.bind_eq_of_ok hupdate).trans
        ((Transaction.bind_eq_of_ok hstructure).trans hpoint))
    · exact hrows.trans hversions
  · intro v hv
    rcases List.mem_append.mp hv with hv | hv
    · simpa using fun hb hc => by simp [hfree v hv hb] at hc
    · simp [List.mem_singleton.mp hv, newBookVersion]

theorem persistVersion_swaps_iff (hs : Consistent s)
    (hadm : (Replacement.persistVersion jobId bookId version result).Admissible s) :
    (Replacement.persistVersion jobId bookId version result).Swaps s ↔
      (Replacement.persistVersion jobId bookId version result).Unobstructed s := by
  obtain ⟨hjob, hfresh, hversion⟩ := hadm
  have hkeys := (Db.bookVersion_accepts_iff.mp hs.bookVersion).current
  cases hexisting : findExistingVersion bookId result s with
  | some existing =>
    simp only [Replacement.Unobstructed, hexisting, Option.isSome_some, if_true]
    obtain ⟨jobs, hrun⟩ :=
      persistIngestionResult_existing version hexisting hs.processingJob hjob
    have hcommit : (Replacement.persistVersion jobId bookId version result).run s =
        .ok ((), { s with processingJobs := jobs }) := Transaction.bind_eq_of_ok hrun
    have hone := occupancy_eq_one_iff (k := bookId) hkeys
    simp only [Db.bookVersionCurrentKey, Option.ite_none_right_eq_some, Option.some.injEq] at hone
    constructor
    · rintro ⟨s', hcommit', hleaves⟩
      rw [hcommit] at hcommit'
      cases hcommit'
      obtain ⟨v, hv, hcurrent, hb⟩ := hone.mp (hleaves bookId (.inl rfl))
      exact ⟨v, hv, hb, hcurrent⟩
    · rintro ⟨v, hv, hb, hcurrent⟩
      refine ⟨_, hcommit, ?_⟩
      rintro k (rfl | hk)
      · exact hone.mpr ⟨v, hv, hcurrent, hb⟩
      · exact hk
  | none =>
    simp only [Replacement.Unobstructed, hexisting, Option.isSome_none, Bool.false_eq_true, if_false]
    rw [← accepts_newVersion_iff hs.bookVersion hfresh.bookVersion hversion hexisting]
    constructor
    · rintro ⟨s', hcommit, -⟩
      obtain ⟨i, s₁, hrun, -⟩ := Transaction.bind_eq_ok_iff.mp hcommit
      exact accepts_of_persistIngestionResult hexisting hrun
    · intro hacc
      obtain ⟨i, s', hrun, hrows⟩ := persistIngestionResult_new hexisting hs hjob hfresh hacc
      refine ⟨s', Transaction.bind_eq_of_ok hrun, ?_⟩
      change OneCurrent _ _ s.bookVersions s'.bookVersions
      rw [hrows]
      refine oneCurrent_of_kept hkeys (Db.bookVersion_accepts_iff.mp hacc).current ?_ ?_
      · exact ⟨newBookVersion s.nextId bookId version result, by simp, rfl⟩
      · exact fun r hr k hk => ⟨r, List.mem_append_left _ hr, hk⟩

end persist

/-! ## The Three Operations -/

/-- In every consistent store an admissible replacement commits and leaves one current row per
key exactly when it is unobstructed. -/
theorem Replacement.swaps_iff_unobstructed (op : Replacement) (s : Store) (hs : Consistent s)
    (hadm : op.Admissible s) : op.Swaps s ↔ op.Unobstructed s := by
  cases op with
  | finalizeScript audioScriptId bookId coverage => exact finalizeScript_swaps_iff hs hadm
  | reviseChunk row newChunkId built => exact reviseChunk_swaps_iff hs hadm
  | persistVersion jobId bookId version result => exact persistVersion_swaps_iff hs hadm

def Replacement.HasCurrent : Replacement → Store → Prop
  | finalizeScript _ bookId _, s => occupancy Db.audioScriptCurrentKey bookId s.audioScripts = 1
  | reviseChunk row _ _, s =>
      occupancy Db.chunkSequenceCurrentKey (row.audioScriptId, row.sequenceIndex)
        s.audioScriptChunks = 1
  | persistVersion _ bookId _ _, s =>
      occupancy Db.bookVersionCurrentKey bookId s.bookVersions = 1

def secondDraftStore : Store where
  books := [{ id := 1, currentBookVersionId := some 2, currentAudioScriptId := some 3 }]
  audioScripts := [
    { id := 3, bookId := 1, bookVersionId := 2, version := 1, isCurrent := true,
      directorVersion := 1, state := .validated, coverageVerified := true, jobId := some 5 },
    { id := 4, bookId := 1, bookVersionId := 2, version := 2, supersedesAudioScriptId := some 3,
      directorVersion := 1, jobId := some 6 }]

private theorem consistent_secondDraftStore : Consistent secondDraftStore :=
  ⟨by decide, by decide, by decide, by decide, by decide, by decide, by decide⟩

/-- Finalizing the validated script once more swaps it for itself. -/
theorem finalizeScript_again_swaps :
    (Replacement.finalizeScript 3 1 ⟨true, 0, 0⟩).Swaps secondDraftStore :=
  (Replacement.swaps_iff_unobstructed (.finalizeScript 3 1 ⟨true, 0, 0⟩) secondDraftStore
    consistent_secondDraftStore ⟨_, List.mem_cons_self, rfl, rfl⟩).mpr
    ⟨by decide, by decide⟩

/-- It is not so that every replacement of a current row swaps it: finalizing the second script
of a book does not. -/
theorem not_forall_swaps :
    ¬ ∀ (op : Replacement) (s : Store), Consistent s → op.Admissible s → op.HasCurrent s →
      op.Swaps s := by
  intro h
  obtain ⟨s', hrun, -⟩ := h (.finalizeScript 4 1 ⟨true, 0, 0⟩) secondDraftStore
    consistent_secondDraftStore ⟨_, List.mem_cons_of_mem _ List.mem_cons_self, rfl, rfl⟩ rfl
  have herror : (Replacement.finalizeScript 4 1 ⟨true, 0, 0⟩).run secondDraftStore =
      .error (.violation .unique) := rfl
  rw [herror] at hrun
  cases hrun

end AudioBook
