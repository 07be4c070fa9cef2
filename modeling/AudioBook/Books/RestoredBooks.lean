import AudioBook.Books.PurgeCompletion

/-!
# Restored Books

A restore looks at `deleted_at` only, and a purge that was admitted never looks at it again: a book
that is restored after its purge was admitted loses its objects and its rows. In runs in which a
restore commits only while no purge of the book is under way, and the job of a purge is created
only while the book is still deleted, a live book loses nothing.

Main results:

- `neverPurged_of_purgeGuarded`: live books are safe in such runs.
-/

namespace AudioBook.Books

open Relational Concurrent

/-- No book that was live is gone, and every live book has all its rows, with the objects that they
refer to. -/
def NeverPurged (s s' : BookStore) : Prop :=
  ∀ bookId, (s.Live bookId → ∃ b ∈ s'.books, b.id = bookId) ∧
    (s'.Live bookId → Kept bookId s s')

/-- A restore commits only while no job of a purge of the book is `CREATED` or `RUNNING`, and the
job of a purge is created only while the book is deleted. -/
def PurgeGuarded : BookAccess → BookStore → Prop
  | .restore bookId, s => ∀ job ∈ s.processingJobs, job.idempotencyKey = .purgeBook bookId →
      job.status ∉ [.created, .running]
  | .createPurge bookId _, s => ¬ s.Live bookId
  | _, _ => True

instance PurgeGuarded.decidable (l : BookAccess) (s : BookStore) : Decidable (PurgeGuarded l s) := by
  unfold PurgeGuarded
  split <;> infer_instance

/-- The book of a purge that is under way is deleted. -/
def PurgingDeleted (s : BookStore) : Prop :=
  ∀ m, Purging m s → ¬ s.Live m.bookId

theorem guardRules_purgingDeleted : GuardRules PurgeGuarded PurgingDeleted where
  init s hs m hm := by
    obtain ⟨job, hjob, -, -, -, -, hkey, hstatus, -⟩ := hm
    exact absurd hstatus (hs.ended job hjob m.bookId hkey)
  mono s s' hs hpurging hlive m hm hbook := hs m (hpurging m hm) (hlive m.bookId hbook)
  restore s s' bookId hs hguarded hpurging hlive m hm hbook := by
    rcases hlive m.bookId hbook with hbook | rfl
    · exact hs m (hpurging m hm) hbook
    · obtain ⟨job, hjob, -, -, -, -, hkey, hstatus, -⟩ := hpurging m hm
      exact hguarded job hjob hkey hstatus
  createPurge s s' bookId tenantId hs hguarded hpurging hlive m hm hbook := by
    rcases hpurging m hm with hm | rfl
    · exact hs m hm (hlive m.bookId hbook)
    · exact hguarded (hlive _ hbook)

/-- In every run in which restores and purges are guarded, whatever crashes, fails or is delivered
again: no live book is purged, and a live book has kept its rows and their objects. -/
theorem neverPurged_of_purgeGuarded {c c' : Config BookStore BookAccess BookError}
    (hc : lifecycleSystem.Reachable PurgeGuarded c)
    (hrun : lifecycleSystem.Run PurgeGuarded c c') : NeverPurged c.store c'.store := by
  have hrespects := guardRules_purgingDeleted.respects
  obtain ⟨s₀, hinit, hev⟩ := hrespects.evolves_of_reachable hc
  have hok := (hev ⟨NoPurgeUnderWay.lifecycleOk hinit, guardRules_purgingDeleted.init s₀ hinit⟩).1
  obtain ⟨⟨-, hdeleted⟩, hmono⟩ := hrespects.evolves_of_run hc hrun hok
  intro bookId
  constructor
  · rintro ⟨b, hb, rfl, -⟩
    obtain ⟨b', hb', hid, -⟩ := hmono.books b hb
    exact ⟨b', hb', hid⟩
  · intro hlive
    refine hmono.kept bookId ?_
    rintro m rfl hm
    exact hdeleted m hm hlive

/-! ## A Restore During a Purge -/

/-- What a run shows of book 1. -/
structure BookView where
  live : Bool
  objects : List StorageKey
  /-- The audio chunks of the book, with their objects. -/
  audio : List (Id × List StorageKey)
  deriving DecidableEq

/-- What a run shows of book 1. -/
def bookView (s : BookStore) : BookView where
  live := decide (s.Live 1)
  objects := s.objects
  audio := ((s.rows .audioChunk).filter fun row => decide (row.bookId = some 1)).map fun row =>
    (row.id, row.objectKeys)

/-- The book is deleted and restored. -/
theorem neverPurged_restored : ∃ c c' : Config BookStore BookAccess BookError,
    lifecycleSystem.Reachable PurgeGuarded c ∧ lifecycleSystem.Run PurgeGuarded c c' ∧
      bookView c.store = ⟨false, [7], [(11, [7])]⟩ ∧
      bookView c'.store = ⟨true, [7], [(11, [7])]⟩ ∧ NeverPurged c.store c'.store := by
  have hplay : (lifecycleSystem.playAll PurgeGuarded ⟨oneBook, []⟩
      (.spawn (.deleteBook owner 1) :: List.replicate 4 (.proceed 0))).bind (fun c₁ =>
        (lifecycleSystem.playAll PurgeGuarded c₁ (.spawn (.restoreBook owner 1) ::
          List.replicate 3 (.proceed 1))).map fun c₂ => (bookView c₁.store, bookView c₂.store)) =
      some (⟨false, [7], [(11, [7])]⟩, ⟨true, [7], [(11, [7])]⟩) := by decide +kernel
  obtain ⟨c, c', hrun, hrun', hview, hview'⟩ := System.exists_run_run_of_playAll
    (f := bookView) (g := bookView) hplay
  have hreach : lifecycleSystem.Reachable PurgeGuarded c := ⟨oneBook, noPurgeUnderWay_oneBook, hrun⟩
  exact ⟨c, c', hreach, hrun', hview, hview', neverPurged_of_purgeGuarded hreach hrun'⟩

/-- It is not so that a live book keeps its objects: the purge of a book is admitted, the book is
restored, and then the purge is delivered. -/
theorem not_forall_neverPurged :
    ¬ ∀ c c' : Config BookStore BookAccess BookError, lifecycleSystem.Reachable anyAccess c →
      lifecycleSystem.Run anyAccess c c' → NeverPurged c.store c'.store := by
  intro h
  have hplay : (lifecycleSystem.playAll anyAccess ⟨oneBook, []⟩
      (purgeMoves ++ .spawn (.restoreBook owner 1) :: List.replicate 3 (.proceed 2))).bind (fun c₁ =>
        (lifecycleSystem.playAll anyAccess c₁ (.spawn (.deliver ⟨100, 1⟩) ::
          List.replicate 14 (.proceed 3))).map fun c₂ => (bookView c₁.store, bookView c₂.store)) =
      some (⟨true, [7], [(11, [7])]⟩, ⟨true, [], [(11, [7])]⟩) := by decide +kernel
  obtain ⟨c, c', hrun, hrun', hview, hview'⟩ := System.exists_run_run_of_playAll
    (f := bookView) (g := bookView) hplay
  have hlive : c'.store.Live 1 := of_decide_eq_true (congrArg BookView.live hview')
  have hkept := (h c c' ⟨oneBook, noPurgeUnderWay_oneBook, hrun⟩ hrun' 1).2 hlive
  have hobjects : c.store.objects = [7] := congrArg BookView.objects hview
  have hobjects' : c'.store.objects = [] := congrArg BookView.objects hview'
  have haudio : (11, [7]) ∈ (bookView c.store).audio := by simp [hview]
  obtain ⟨row, hrow, heq⟩ := List.mem_map.mp haudio
  obtain ⟨hrow, hbook⟩ := List.mem_filter.mp hrow
  have hbook : row.bookId = some 1 := of_decide_eq_true hbook
  have hkey : 7 ∈ row.objectKeys := by simp [(Prod.mk.inj heq).2]
  have hlost := (hkept .audioChunk row hrow hbook).2 7 hkey (by simp [hobjects])
  rw [hobjects'] at hlost
  cases hlost

end AudioBook.Books
