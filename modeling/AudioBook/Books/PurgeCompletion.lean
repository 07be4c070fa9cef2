import AudioBook.Books.Guarantee

/-!
# Purges Never Complete

The job of a purge refers to its book, and the purge keeps the row of its own job so that it can
mark it as succeeded at the end. The foreign key of `processing_job` to `book` restricts, so the
deletion of the book is rejected, and the failure handler's write is rejected as well, because it
sets no error code. In every run, the book of a purge stays, and its job is `CREATED` or `RUNNING`.

Main results:

- `purge_never_completes`: no delivery ever does.
-/

namespace AudioBook.Books

open Relational Concurrent

/-- A delivery of the message in which nothing fails from outside returns and leaves no book. -/
def completes (m : PurgeMessage) (s : BookStore) : Bool :=
  match (runPurgeBook m.jobId m.bookId).evaluate (fun _ => none) s with
  | (.ok _, s') => (s'.findBook m.bookId).isNone
  | (.error _, _) => false

/-- From the moment the message of an admitted purge is on the queue, whatever crashes, fails, is
delivered again or runs beside it: the book is there, the job has neither succeeded nor failed, the
jobs meet the constraints of their table, and a delivery that nothing disturbs does not complete
the purge. -/
theorem purge_never_completes {c c' : Config BookStore BookAccess BookError}
    (hc : lifecycleSystem.Reachable anyAccess c) {m : PurgeMessage} (hm : m ∈ c.store.queue)
    (hrun : lifecycleSystem.Run anyAccess c c') :
    completes m c'.store = false ∧ (∃ b ∈ c'.store.books, b.id = m.bookId) ∧
      (∃ job ∈ c'.store.processingJobs, job.id = m.jobId ∧ job.status ∈ [.created, .running]) ∧
      processingJob.Holds c'.store := by
  have hrespects : lifecycleSystem.Respects (lifecycleContract anyAccess fun _ => True) :=
    (guardRules_true anyAccess).respects
  obtain ⟨s₀, hinit, hev⟩ := hrespects.evolves_of_reachable hc
  have hok : LifecycleOk c.store ∧ True :=
    (hev ⟨NoPurgeUnderWay.lifecycleOk hinit, trivial⟩).1
  -- A purge that is under way stays so along every run.
  have hpurging : ∀ {c'' : Config BookStore BookAccess BookError},
      lifecycleSystem.Run anyAccess c c'' → Purging m c''.store ∧ LifecycleOk c''.store := fun hrun => by
    obtain ⟨hok', hmono⟩ := hrespects.evolves_of_run hc hrun hok
    exact ⟨hmono.purging m (hok.1.message m hm), hok'.1⟩
  obtain ⟨⟨job, hjob, b, hb, hid, -, -, hstatus, -, hbook, -⟩, hok'⟩ := hpurging hrun
  refine ⟨?_, ⟨b, hb, hbook⟩, ⟨job, hjob, hid, hstatus⟩, hok'.jobs⟩
  -- The delivery that nothing disturbs is one more run.
  have henabled : lifecycleSystem.enabled (.deliver m) c'.store :=
    (hrespects.evolves_of_run hc hrun hok).2.queue hm
  obtain ⟨q, halone⟩ : ∃ q, lifecycleSystem.Run anyAccess
      ⟨c'.store, c'.threads ++ [lifecycleSystem.program (.deliver m)]⟩ ⟨_, _ ++ [q]⟩ :=
    System.run_of_evaluate (fun _ _ => trivial) _ c'.store c'.threads
  obtain ⟨⟨-, -, b', hb', -, -, -, -, -, hbook', -⟩, -⟩ :=
    hpurging ((hrun.tail (.spawn (.deliver m) henabled)).trans halone)
  rw [completes]
  split
  · next hend =>
    have hmem : b' ∈ (runPurgeBook m.jobId m.bookId |>.evaluate (fun _ => none) c'.store).2.books := hb'
    rw [hend] at hmem
    refine Option.isNone_eq_false_iff.mpr (List.find?_isSome.mpr ⟨b', hmem, ?_⟩)
    simpa using hbook'
  · rfl

/-! ## An Admitted Purge -/

def owner : Principal := ⟨1, true⟩

/-- The owner has a book with one chunk of audio. -/
def oneBook : BookStore where
  books := [{ id := 1, tenantId := 1 }]
  rows
    | .audioChunk => [⟨11, some 1, ({
        audioScriptChunkId := 10
        isCurrent := true
        status := .validated
        storageKey := 7
        createdAt := 0 } : AudioChunkData)⟩]
    | _ => []
  objects := [7]
  nextId := 100

theorem noPurgeUnderWay_oneBook : NoPurgeUnderWay oneBook where
  books := by decide
  jobs := by decide
  profiles := by decide
  objects := by
    have hrow : ∀ t, ∀ row ∈ oneBook.rows t, ∀ bookId, BelongsTo bookId oneBook t row → bookId = 1 := by
      intro t row hrow bookId hbelongs
      cases t with
      | audioChunk =>
        obtain rfl := List.mem_singleton.mp hrow
        exact (Option.some.inj hbelongs).symm
      | _ => cases hrow
    intro t row hrow₁ t' row' hrow₂ bookId bookId' _ _ hbelongs hbelongs' _ _
    rw [hrow t row hrow₁ bookId hbelongs, hrow t' row' hrow₂ bookId' hbelongs']
  lt_nextId := by decide
  ended := by simp [oneBook]
  dispatched := by simp [oneBook]
  queue := rfl

def purgeMoves : List (Move LifecycleRequest BookError) :=
  .spawn (.deleteBook owner 1) :: List.replicate 4 (.proceed 0) ++
    .spawn (.purgeBook owner 1 1) :: List.replicate 6 (.proceed 1)

/-- What a run shows of the purges: the messages, whether a delivery completes, and the objects. -/
def purgeView (s : BookStore) : List (PurgeMessage × Bool) × List StorageKey :=
  (s.queue.map fun m => (m, completes m s), s.objects)

theorem exists_mem_queue_of_purgeView {s : BookStore} {m : PurgeMessage} {b : Bool}
    {keys : List StorageKey} (h : purgeView s = ([(m, b)], keys)) :
    m ∈ s.queue ∧ completes m s = b := by
  have hmem : (m, b) ∈ (purgeView s).1 := by simp [h]
  obtain ⟨m', hm', heq⟩ := List.mem_map.mp hmem
  cases heq
  exact ⟨hm', rfl⟩

/-- The purge of a book is admitted, and its first delivery crashes after it deleted the audio. -/
theorem purge_never_completes_oneBook : ∃ c c' : Config BookStore BookAccess BookError,
    lifecycleSystem.Reachable anyAccess c ∧ lifecycleSystem.Run anyAccess c c' ∧
      completes ⟨100, 1⟩ c'.store = false ∧ ∃ b ∈ c'.store.books, b.id = 1 := by
  have hplay : (lifecycleSystem.playAll anyAccess ⟨oneBook, []⟩ purgeMoves).bind (fun c₁ =>
      (lifecycleSystem.playAll anyAccess c₁ (.spawn (.deliver ⟨100, 1⟩) ::
        List.replicate 15 (.proceed 2) ++ [.crash 2])).map fun c₂ =>
          (purgeView c₁.store, purgeView c₂.store)) =
      some (([(⟨100, 1⟩, false)], [7]), [(⟨100, 1⟩, false)], []) := by decide +kernel
  obtain ⟨c, c', hrun, hrun', hview, -⟩ := System.exists_run_run_of_playAll
    (f := purgeView) (g := purgeView) hplay
  have hreach : lifecycleSystem.Reachable anyAccess c := ⟨oneBook, noPurgeUnderWay_oneBook, hrun⟩
  obtain ⟨hnever, hbook, -⟩ :=
    purge_never_completes hreach (exists_mem_queue_of_purgeView hview).1 hrun'
  exact ⟨c, c', hreach, hrun', hnever, hbook⟩

/-- It is not so that every admitted purge completes. -/
theorem not_forall_completes :
    ¬ ∀ (c : Config BookStore BookAccess BookError) (m : PurgeMessage),
      lifecycleSystem.Reachable anyAccess c → m ∈ c.store.queue → completes m c.store = true := by
  intro h
  have hplay : (lifecycleSystem.playAll anyAccess ⟨oneBook, []⟩ purgeMoves).map
      (fun c => purgeView c.store) = some ([(⟨100, 1⟩, false)], [7]) := by decide +kernel
  obtain ⟨c, hrun, hview⟩ := System.exists_run_of_playAll (f := purgeView) hplay
  obtain ⟨hm, hfails⟩ := exists_mem_queue_of_purgeView hview
  have hcompletes := h c ⟨100, 1⟩ ⟨oneBook, noPurgeUnderWay_oneBook, hrun⟩ hm
  rw [hfails] at hcompletes
  cases hcompletes

end AudioBook.Books
