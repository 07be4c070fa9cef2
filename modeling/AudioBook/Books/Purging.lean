import AudioBook.Books.Lifecycle

/-!
# What a Purge Touches

The invariant of the lifecycle of books and what no access takes back: every message on the queue
is the one of a purge whose job is there, `CREATED` or `RUNNING`; such a job stays, and so does its
book; and a book for which no purge is under way keeps its rows and their objects.

Main results:

- `LifecycleOk.purging_unique`: a book has one purge under way at most.
- `lifecycle_of_rows`, `lifecycle_of_jobs` and their like: what each kind of access preserves.
-/

namespace AudioBook.Books

open Relational Concurrent

/-- The purge of a message is under way: its job and its book are there, and the job has not
ended. -/
def Purging (m : PurgeMessage) (s : BookStore) : Prop :=
  ∃ job ∈ s.processingJobs, ∃ b ∈ s.books, job.id = m.jobId ∧ job.bookId = some m.bookId ∧
    job.idempotencyKey = .purgeBook m.bookId ∧ job.status ∈ [.created, .running] ∧
    job.errorCode = none ∧ b.id = m.bookId ∧ b.tenantId = job.tenantId

/-- A book keeps its rows and the objects that they refer to. -/
def Kept (bookId : Id) (s s' : BookStore) : Prop :=
  ∀ t, ∀ row ∈ s.rows t, BelongsTo bookId s t row →
    row ∈ s'.rows t ∧ ∀ key ∈ row.objectKeys, key ∈ s.objects → key ∈ s'.objects

/-- Two versions of a book. -/
def SameBook (b b' : Book) : Prop := b'.id = b.id ∧ b'.tenantId = b.tenantId

instance : IsPreorder Book SameBook where
  refl _ := ⟨rfl, rfl⟩
  trans _ _ _ h h' := ⟨h'.1.trans h.1, h'.2.trans h.2⟩

/-- The invariant of the lifecycle. -/
structure LifecycleOk (s : BookStore) : Prop where
  books : (s.books.map Book.id).Nodup
  jobs : processingJob.Holds s
  profiles : ((s.rows .voiceProfile).map BookRow.id).Nodup
  objects : ObjectsOwned s
  lt_nextId : ∀ job ∈ s.processingJobs, job.id < s.nextId
  message : ∀ m ∈ s.queue, Purging m s
  undispatched : ∀ job ∈ s.processingJobs, job.status = .created →
    ∀ m ∈ job.dispatchEnvelope, Purging m s

/-- What no access takes back. -/
structure LifecycleMono (s s' : BookStore) : Prop where
  nextId : s.nextId ≤ s'.nextId
  books : Persist SameBook s.books s'.books
  queue : s.queue ⊆ s'.queue
  purging : ∀ m, Purging m s → Purging m s'
  fresh : ∀ m, m.jobId < s.nextId → Purging m s' → Purging m s
  rows : ∀ t, s'.rows t ⊆ s.rows t
  kept : ∀ bookId, (∀ m, m.bookId = bookId → ¬ Purging m s') → Kept bookId s s'

section basic

variable {s s' s'' : BookStore} {bookId bookId' : Id} {t : BookTable} {row : BookRow t}
  {m : PurgeMessage}

theorem BelongsTo.of_subset (h : BelongsTo bookId s' t row)
    (hprofiles : s'.rows .voiceProfile ⊆ s.rows .voiceProfile) : BelongsTo bookId s t row := by
  cases t with
  | voiceProfileVersion =>
    obtain ⟨profile, hprofile, hid⟩ := h
    exact ⟨profile, hprofiles hprofile, hid⟩
  | _ => exact h

theorem Kept.belongsTo (h : Kept bookId s s') (hrow : BelongsTo bookId s t row) :
    BelongsTo bookId s' t row := by
  cases t with
  | voiceProfileVersion =>
    obtain ⟨profile, hprofile, hid, hbook, hscope⟩ := hrow
    exact ⟨profile, (h .voiceProfile profile hprofile hbook).1, hid, hbook, hscope⟩
  | _ => exact hrow

theorem Kept.refl (bookId : Id) (s : BookStore) : Kept bookId s s :=
  fun _ _ hrow _ => ⟨hrow, fun _ _ hkey => hkey⟩

theorem Kept.trans (h : Kept bookId s s') (h' : Kept bookId s' s'') : Kept bookId s s'' := by
  intro t row hrow hbelongs
  obtain ⟨hrow', hkeys⟩ := h t row hrow hbelongs
  obtain ⟨hrow'', hkeys'⟩ := h' t row hrow' (h.belongsTo hbelongs)
  exact ⟨hrow'', fun key hkey hobject => hkeys' key hkey (hkeys key hkey hobject)⟩

instance : IsPreorder BookStore LifecycleMono where
  refl s := {
    nextId := Nat.le_refl _
    books := refl_of (Persist SameBook) s.books
    queue := List.Subset.refl _
    purging := fun _ h => h
    fresh := fun _ _ h => h
    rows := fun _ => List.Subset.refl _
    kept := fun bookId _ => Kept.refl bookId s }
  trans _ _ _ h h' := {
    nextId := Nat.le_trans h.nextId h'.nextId
    books := trans_of (Persist SameBook) h.books h'.books
    queue := List.Subset.trans h.queue h'.queue
    purging := fun m hm => h'.purging m (h.purging m hm)
    fresh := fun m hlt hm => h.fresh m hlt (h'.fresh m (Nat.lt_of_lt_of_le hlt h.nextId) hm)
    rows := fun t => List.Subset.trans (h'.rows t) (h.rows t)
    kept := fun bookId hnone =>
      (h.kept bookId fun m hm hpurging => hnone m hm (h'.purging m hpurging)).trans
        (h'.kept bookId hnone) }

theorem processingJob_accepts_iff {rows : List BookJob} :
    processingJob.Accepts rows ↔
      (rows.map BookJob.id).Nodup ∧ UniqueWhere BookJob.activeIdempotencyKey rows ∧
        ∀ job ∈ rows, job.status ∈ [.failed, .deadLettered] → job.errorCode.isSome := by
  simp only [Table.Accepts, processingJob, List.forall_mem_cons, List.not_mem_nil,
    Constraint.holds_uniqueWhere, Constraint.holds_check, uniqueWhere_some, decide_eq_true_eq]
  constructor
  · rintro ⟨h₁, h₂, h₃, -⟩
    exact ⟨h₁, h₂, h₃⟩
  · rintro ⟨h₁, h₂, h₃⟩
    exact ⟨h₁, h₂, h₃, by simp⟩

theorem LifecycleOk.accepts (h : LifecycleOk s) :
    (s.processingJobs.map BookJob.id).Nodup ∧
      UniqueWhere BookJob.activeIdempotencyKey s.processingJobs ∧
        ∀ job ∈ s.processingJobs, job.status ∈ [.failed, .deadLettered] → job.errorCode.isSome :=
  processingJob_accepts_iff.mp h.jobs

theorem LifecycleOk.purging_unique (h : LifecycleOk s) {m m' : PurgeMessage} (hm : Purging m s)
    (hm' : Purging m' s) (hbook : m.bookId = m'.bookId) : m = m' := by
  obtain ⟨job, hjob, b, hb, hid, -, hkey, hstatus, -, hbid, htenant⟩ := hm
  obtain ⟨job', hjob', b', hb', hid', -, hkey', hstatus', -, hbid', htenant'⟩ := hm'
  have hbb : b = b' :=
    List.inj_on_of_nodup_map h.books hb hb' (by rw [hbid, hbid', hbook])
  have hactive : ∀ {job : BookJob}, job.status ∈ [.created, .running] →
      job.activeIdempotencyKey = some (job.tenantId, job.idempotencyKey) := by
    intro job hstatus
    simp only [List.mem_cons, List.not_mem_nil, or_false] at hstatus
    rcases hstatus with hstatus | hstatus <;> simp [BookJob.activeIdempotencyKey, hstatus]
  have hsame : job.id = job'.id := by
    by_contra hne
    refine (uniqueWhere_iff_of_ids h.accepts.1).mp h.accepts.2.1 job hjob job' hjob' hne
      (job.tenantId, job.idempotencyKey) (hactive hstatus) ?_
    rw [hactive hstatus', ← htenant, ← htenant', hkey, hkey', hbook, hbb]
  cases m
  cases m'
  simp only at hbook hid hid'
  rw [← hid, ← hid', hsame, hbook]

end basic

/-! ## Accesses to Rows and Objects -/

/-- The jobs, the books and the queue are the same. -/
structure SameJobs (s s' : BookStore) : Prop where
  books : s'.books = s.books
  processingJobs : s'.processingJobs = s.processingJobs
  queue : s'.queue = s.queue
  nextId : s'.nextId = s.nextId

section rows

variable {s s' : BookStore} {bookId : Id} {m : PurgeMessage}

theorem SameJobs.purging_iff (h : SameJobs s s') : Purging m s' ↔ Purging m s := by
  rw [Purging, Purging, h.books, h.processingJobs]

theorem SameJobs.live_iff (h : SameJobs s s') : s'.Live bookId ↔ s.Live bookId := by
  rw [BookStore.Live, BookStore.Live, h.books]

theorem LifecycleOk.of_sameJobs (h : LifecycleOk s) (hsame : SameJobs s s')
    (hrows : ∀ t, (s'.rows t).Sublist (s.rows t)) : LifecycleOk s' where
  books := hsame.books ▸ h.books
  jobs := by
    show processingJob.Accepts s'.processingJobs
    rw [hsame.processingJobs]
    exact h.jobs
  profiles := h.profiles.sublist ((hrows .voiceProfile).map _)
  objects := by
    intro t row hrow t' row' hrow' bookId bookId' key hfile hbelongs hbelongs'
    exact h.objects t row ((hrows t).subset hrow) t' row' ((hrows t').subset hrow') bookId bookId'
      key hfile (hbelongs.of_subset (hrows _).subset) (hbelongs'.of_subset (hrows _).subset)
  lt_nextId := by
    rw [hsame.processingJobs, hsame.nextId]
    exact h.lt_nextId
  message := by
    intro m hm
    exact hsame.purging_iff.mpr (h.message m (hsame.queue ▸ hm))
  undispatched := by
    rw [hsame.processingJobs]
    exact fun job hjob hcreated m hm => hsame.purging_iff.mpr (h.undispatched job hjob hcreated m hm)

theorem LifecycleMono.of_sameJobs (hsame : SameJobs s s')
    (hrows : ∀ t, (s'.rows t).Sublist (s.rows t)) (hm : Purging m s)
    (hkept : ∀ bookId, bookId ≠ m.bookId → Kept bookId s s') : LifecycleMono s s' where
  nextId := hsame.nextId ▸ Nat.le_refl _
  books := hsame.books ▸ refl_of (Persist SameBook) s.books
  queue := hsame.queue ▸ List.Subset.refl _
  purging _ h := hsame.purging_iff.mpr h
  fresh _ _ h := hsame.purging_iff.mp h
  rows t := (hrows t).subset
  kept bookId hnone := by
    refine hkept bookId ?_
    rintro rfl
    exact hnone m rfl (hsame.purging_iff.mpr hm)

theorem kept_of_deleteRows {t : BookTable} {p : BookRow t → Bool} {bookId : Id}
    (hp : ∀ row ∈ s.rows t, p row = true → ∀ bookId', BelongsTo bookId' s t row → bookId' = bookId)
    {bookId' : Id} (hne : bookId' ≠ bookId) :
    Kept bookId' s (s.setRows t ((s.rows t).filter fun row => !p row)) := by
  intro t' row hrow hbelongs
  refine ⟨?_, fun _ _ hkey => hkey⟩
  by_cases ht : t' = t
  · subst ht
    rw [BookStore.setRows_self, List.mem_filter]
    refine ⟨hrow, ?_⟩
    cases hpr : p row with
    | false => rfl
    | true => exact absurd (hp row hrow hpr bookId' hbelongs) hne
  · rw [BookStore.setRows_of_ne s ht]
    exact hrow

theorem setRows_filter_sublist {t : BookTable} {p : BookRow t → Bool} (t' : BookTable) :
    ((s.setRows t ((s.rows t).filter p)).rows t').Sublist (s.rows t') := by
  by_cases ht : t' = t
  · subst ht
    rw [BookStore.setRows_self]
    exact List.filter_sublist
  · rw [BookStore.setRows_of_ne s ht]

/-- Only rows of the book refer to the object. -/
def OwnKey (bookId : Id) (key : StorageKey) (s : BookStore) : Prop :=
  ∀ t, ∀ row ∈ s.rows t, key ∈ row.objectKeys → ∀ bookId', BelongsTo bookId' s t row →
    bookId' = bookId

theorem OwnKey.kept {key : StorageKey} (h : OwnKey bookId key s) {bookId' : Id}
    (hne : bookId' ≠ bookId) :
    Kept bookId' s { s with objects := s.objects.filter fun k => decide (k ≠ key) } := by
  intro t row hrow hbelongs
  refine ⟨hrow, fun key' hkey' hobject => List.mem_filter.mpr ⟨hobject, ?_⟩⟩
  have hkey : key' ≠ key := by
    rintro rfl
    exact hne (h t row hrow hkey' bookId' hbelongs)
  simpa using hkey

theorem LifecycleOk.ownKey (h : LifecycleOk s) {t : BookTable} {row : BookRow t}
    (hrow : row ∈ s.rows t) (ht : t ≠ .bookFile) (hbelongs : BelongsTo bookId s t row)
    {key : StorageKey} (hkey : key ∈ row.objectKeys) : OwnKey bookId key s :=
  fun t' row' hrow' hkey' bookId' hbelongs' =>
    h.objects t' row' hrow' t row hrow bookId' bookId key (.inr ht) hbelongs' hbelongs hkey' hkey

end rows

/-! ## Accesses to Jobs -/

/-- The rows, the objects and the queue are the same. -/
structure SameRows (s s' : BookStore) : Prop where
  rows : s'.rows = s.rows
  objects : s'.objects = s.objects
  queue : s'.queue = s.queue

section jobs

variable {s s' : BookStore} {m : PurgeMessage}

theorem SameRows.kept (h : SameRows s s') (bookId : Id) : Kept bookId s s' := by
  intro t row hrow _
  rw [h.rows, h.objects]
  exact ⟨hrow, fun _ _ hkey => hkey⟩

theorem SameRows.belongsTo_iff (h : SameRows s s') {bookId : Id} {t : BookTable} {row : BookRow t} :
    BelongsTo bookId s' t row ↔ BelongsTo bookId s t row := by
  constructor <;> intro hbelongs <;> refine hbelongs.of_subset ?_ <;> rw [h.rows] <;>
    exact List.Subset.refl _

theorem SameRows.objectsOwned (h : SameRows s s') (hs : ObjectsOwned s) : ObjectsOwned s' := by
  intro t row hrow t' row' hrow' bookId bookId' key hfile hbelongs hbelongs'
  rw [h.rows] at hrow hrow'
  exact hs t row hrow t' row' hrow' bookId bookId' key hfile (h.belongsTo_iff.mp hbelongs)
    (h.belongsTo_iff.mp hbelongs')

theorem lifecycle_of_jobs (h : LifecycleOk s) (hsame : SameRows s s') (hbooks : s'.books = s.books)
    (hnextId : s'.nextId = s.nextId) (hjobs : processingJob.Holds s')
    (hpurging : ∀ m, Purging m s' ↔ Purging m s)
    (hlt : ∀ job ∈ s'.processingJobs, job.id < s.nextId)
    (hundispatched : ∀ job ∈ s'.processingJobs, job.status = .created →
      ∀ m ∈ job.dispatchEnvelope, Purging m s) : LifecycleOk s' ∧ LifecycleMono s s' := by
  constructor
  · exact {
      books := hbooks ▸ h.books
      jobs := hjobs
      profiles := hsame.rows ▸ h.profiles
      objects := hsame.objectsOwned h.objects
      lt_nextId := hnextId ▸ hlt
      message := fun m hm => (hpurging m).mpr (h.message m (hsame.queue ▸ hm))
      undispatched := fun job hjob hcreated m hm =>
        (hpurging m).mpr (hundispatched job hjob hcreated m hm) }
  · exact {
      nextId := hnextId ▸ Nat.le_refl _
      books := hbooks ▸ refl_of (Persist SameBook) s.books
      queue := hsame.queue ▸ List.Subset.refl _
      purging := fun m hm => (hpurging m).mpr hm
      fresh := fun m _ hm => (hpurging m).mp hm
      rows := fun t => hsame.rows ▸ List.Subset.refl _
      kept := fun bookId _ => hsame.kept bookId }

/-- What identifies a job stays. -/
structure SameJob (job job' : BookJob) : Prop where
  id : job'.id = job.id
  tenantId : job'.tenantId = job.tenantId
  bookId : job'.bookId = job.bookId
  idempotencyKey : job'.idempotencyKey = job.idempotencyKey
  errorCode : job'.errorCode = job.errorCode
  dispatchEnvelope : job'.dispatchEnvelope = job.dispatchEnvelope

theorem lifecycle_of_updateJob {jobId : Id} {f : BookJob → BookJob} (h : LifecycleOk s)
    (hf : ∀ job, SameJob job (f job))
    (hactive : ∀ job ∈ s.processingJobs, job.id = jobId →
      ((f job).status ∈ [.created, .running] ↔ job.status ∈ [.created, .running]))
    (hcreated : ∀ job, (f job).status = .created → job.status = .created)
    (hs' : updateJob jobId f s = .ok ((), s')) :
    (LifecycleOk s' ∧ LifecycleMono s s') ∧ (∀ m, Purging m s' ↔ Purging m s) ∧
      s'.books = s.books := by
  obtain ⟨_, _, hget, hs'⟩ := Transaction.bind_eq_ok_iff.mp hs'
  cases hget
  split at hs'
  swap
  · cases hs'
  obtain ⟨hacc, rfl⟩ := (Table.update_eq_ok_iff _).mp hs'
  change processingJob.Accepts (updateWhere _ f s.processingJobs) at hacc
  have hpurging : ∀ m, Purging m (processingJob.setRows (updateWhere
      (fun job => decide (job.id = jobId)) f (processingJob.rows s)) s) ↔ Purging m s := by
    intro m
    constructor
    · rintro ⟨job, hjob, b, hb, hid, hbook, hkey, hstatus, herror, hbid, htenant⟩
      rcases mem_updateWhere.mp hjob with ⟨job₀, hjob₀, hp, rfl⟩ | ⟨hjob, -⟩
      · have hsame := hf job₀
        refine ⟨job₀, hjob₀, b, hb, hsame.id ▸ hid, hsame.bookId ▸ hbook, hsame.idempotencyKey ▸ hkey,
          (hactive job₀ hjob₀ (by simpa using hp)).mp hstatus, hsame.errorCode ▸ herror, hbid,
          hsame.tenantId ▸ htenant⟩
      · exact ⟨job, hjob, b, hb, hid, hbook, hkey, hstatus, herror, hbid, htenant⟩
    · rintro ⟨job, hjob, b, hb, hid, hbook, hkey, hstatus, herror, hbid, htenant⟩
      by_cases hp : job.id = jobId
      · have hsame := hf job
        exact ⟨f job, mem_updateWhere.mpr (.inl ⟨job, hjob, by simpa using hp, rfl⟩), b, hb,
          hsame.id.trans hid, hsame.bookId.trans hbook, hsame.idempotencyKey.trans hkey,
          (hactive job hjob hp).mpr hstatus, hsame.errorCode.trans herror, hbid,
          htenant.trans hsame.tenantId.symm⟩
      · exact ⟨job, mem_updateWhere.mpr (.inr ⟨hjob, by simpa using hp⟩), b, hb, hid, hbook, hkey,
          hstatus, herror, hbid, htenant⟩
  refine ⟨lifecycle_of_jobs h ⟨rfl, rfl, rfl⟩ rfl rfl hacc hpurging ?_ ?_, hpurging, rfl⟩
  · exact forall_mem_updateWhere h.lt_nextId fun job hjob _ => (hf job).id ▸ h.lt_nextId job hjob
  · refine forall_mem_updateWhere h.undispatched fun job hjob _ hcr m hm => ?_
    exact h.undispatched job hjob (hcreated job hcr) m ((hf job).dispatchEnvelope ▸ hm)

theorem lifecycle_of_deleteJobs {jobIds : List Id} (h : LifecycleOk s)
    (hjobIds : ∀ jobId ∈ jobIds, ∀ m, m.jobId = jobId → ¬ Purging m s)
    (hs' : (BookAccess.deleteJobs jobIds).transaction s = .ok ((), s')) :
    (LifecycleOk s' ∧ LifecycleMono s s') ∧ (∀ m, Purging m s' ↔ Purging m s) ∧
      s'.books = s.books := by
  obtain ⟨hacc, rfl⟩ := (Table.statement_eq_ok_iff _).mp hs'
  have hpurging : ∀ m, Purging m (processingJob.setRows ((processingJob.rows s).filter
      fun job => decide (job.id ∉ jobIds)) s) ↔ Purging m s := by
    intro m
    constructor
    · rintro ⟨job, hjob, hrest⟩
      exact ⟨job, List.mem_of_mem_filter hjob, hrest⟩
    · intro hm
      obtain ⟨job, hjob, b, hb, hid, hrest⟩ := id hm
      refine ⟨job, List.mem_filter.mpr ⟨hjob, decide_eq_true ?_⟩, b, hb, hid, hrest⟩
      exact fun hmem => hjobIds job.id hmem m hid.symm hm
  refine ⟨lifecycle_of_jobs h ⟨rfl, rfl, rfl⟩ rfl rfl hacc hpurging ?_ ?_, hpurging, rfl⟩
  · exact fun job hjob => h.lt_nextId job (List.mem_of_mem_filter hjob)
  · exact fun job hjob => h.undispatched job (List.mem_of_mem_filter hjob)

theorem lifecycle_of_createPurge {bookId tenantId jobId : Id} (h : LifecycleOk s)
    (hbook : ∃ b ∈ s.books, b.id = bookId ∧ b.tenantId = tenantId)
    (hs' : createPurge bookId tenantId s = .ok (jobId, s')) :
    (LifecycleOk s' ∧ LifecycleMono s s') ∧ Purging ⟨jobId, bookId⟩ s' ∧
      (∀ m, Purging m s' → Purging m s ∨ m = ⟨jobId, bookId⟩) ∧ s'.books = s.books := by
  obtain ⟨_, s₁, hinsert, hret⟩ := Transaction.bind_eq_ok_iff.mp hs'
  obtain ⟨hacc, rfl⟩ := (Table.insert_eq_ok_iff _).mp hinsert
  obtain ⟨rfl, rfl⟩ := Transaction.pure_eq_ok_iff.mp hret
  obtain ⟨b, hb, hbid, hbtenant⟩ := hbook
  generalize hs₁ : processingJob.setRows (processingJob.rows { s with nextId := s.nextId + 1 } ++
    [purgeJob s.nextId bookId tenantId]) { s with nextId := s.nextId + 1 } = s₁
  have hjobs : s₁.processingJobs = s.processingJobs ++ [purgeJob s.nextId bookId tenantId] := by
    rw [← hs₁]
    rfl
  have hbooks : s₁.books = s.books := by rw [← hs₁]; rfl
  have hnextId : s₁.nextId = s.nextId + 1 := by rw [← hs₁]; rfl
  have hsame : SameRows s s₁ := by rw [← hs₁]; exact ⟨rfl, rfl, rfl⟩
  have hnew : Purging ⟨s.nextId, bookId⟩ s₁ := by
    refine ⟨purgeJob s.nextId bookId tenantId, ?_, b, hbooks ▸ hb, rfl, rfl, rfl, by simp [purgeJob],
      rfl, hbid, hbtenant⟩
    rw [hjobs]
    exact List.mem_append_right _ List.mem_cons_self
  have hold : ∀ m, Purging m s → Purging m s₁ := by
    rintro m ⟨job, hjob, b', hb', hrest⟩
    exact ⟨job, hjobs ▸ List.mem_append_left _ hjob, b', hbooks ▸ hb', hrest⟩
  have hcases : ∀ m, Purging m s₁ → Purging m s ∨ m = ⟨s.nextId, bookId⟩ := by
    rintro m ⟨job, hjob, b', hb', hid, hjobBook, hrest⟩
    rw [hjobs] at hjob
    rcases List.mem_append.mp hjob with hjob | hjob
    · exact .inl ⟨job, hjob, b', hbooks ▸ hb', hid, hjobBook, hrest⟩
    · obtain rfl := List.mem_singleton.mp hjob
      refine .inr ?_
      cases m
      simp only [purgeJob, Option.some.injEq] at hid hjobBook
      rw [hid, hjobBook]
  refine ⟨⟨?_, ?_⟩, hnew, hcases, hbooks⟩
  · exact {
      books := hbooks ▸ h.books
      jobs := by
        show processingJob.Accepts s₁.processingJobs
        rw [hjobs]
        exact hacc
      profiles := hsame.rows ▸ h.profiles
      objects := hsame.objectsOwned h.objects
      lt_nextId := by
        rw [hjobs, hnextId]
        intro job hjob
        rcases List.mem_append.mp hjob with hjob | hjob
        · exact Nat.lt_succ_of_lt (h.lt_nextId job hjob)
        · obtain rfl := List.mem_singleton.mp hjob
          exact Nat.lt_succ_self _
      message := fun m hm => hold m (h.message m (hsame.queue ▸ hm))
      undispatched := by
        rw [hjobs]
        intro job hjob hcreated m hm
        rcases List.mem_append.mp hjob with hjob | hjob
        · exact hold m (h.undispatched job hjob hcreated m hm)
        · obtain rfl := List.mem_singleton.mp hjob
          obtain rfl : (⟨s.nextId, bookId⟩ : PurgeMessage) = m := by simpa [purgeJob] using hm
          exact hnew }
  · exact {
      nextId := hnextId ▸ Nat.le_succ _
      books := hbooks ▸ refl_of (Persist SameBook) s.books
      queue := hsame.queue ▸ List.Subset.refl _
      purging := hold
      fresh := by
        intro m hlt hm
        rcases hcases m hm with hm | rfl
        · exact hm
        · exact absurd hlt (Nat.lt_irrefl _)
      rows := fun t => hsame.rows ▸ List.Subset.refl _
      kept := fun bookId _ => hsame.kept bookId }

end jobs

/-! ## Accesses to Books and the Queue -/

section books

variable {s s' : BookStore}

theorem lifecycle_of_updateBook {bookId : Id} {f : Book → Book} (h : LifecycleOk s)
    (hf : ∀ b, SameBook b (f b)) (hs' : updateBook bookId f s = .ok ((), s')) :
    (LifecycleOk s' ∧ LifecycleMono s s') ∧ (∀ m, Purging m s' ↔ Purging m s) ∧
      s'.books = updateWhere (fun b => decide (b.id = bookId)) f s.books := by
  obtain ⟨_, _, hget, hs'⟩ := Transaction.bind_eq_ok_iff.mp hs'
  cases hget
  split at hs'
  swap
  · cases hs'
  obtain ⟨books, hbooks⟩ : ∃ books, books = updateWhere (fun b => decide (b.id = bookId)) f s.books :=
    ⟨_, rfl⟩
  obtain rfl : s' = { s with books } := by
    rw [hbooks]
    cases hs'
    rfl
  have hpersist : Persist SameBook s.books books := by
    rw [hbooks]
    exact Persist.updateWhere fun b _ _ => hf b
  have hpurging : ∀ m, Purging m { s with books } ↔ Purging m s := by
    intro m
    constructor
    · rintro ⟨job, hjob, b, hb, hid, hbook, hkey, hstatus, herror, hbid, htenant⟩
      rcases mem_updateWhere.mp (hbooks ▸ hb) with ⟨b₀, hb₀, -, rfl⟩ | ⟨hb, -⟩
      · exact ⟨job, hjob, b₀, hb₀, hid, hbook, hkey, hstatus, herror, (hf b₀).1.symm.trans hbid,
          (hf b₀).2.symm.trans htenant⟩
      · exact ⟨job, hjob, b, hb, hid, hbook, hkey, hstatus, herror, hbid, htenant⟩
    · rintro ⟨job, hjob, b, hb, hid, hbook, hkey, hstatus, herror, hbid, htenant⟩
      obtain ⟨b', hb', hid', htenant'⟩ := hpersist b hb
      exact ⟨job, hjob, b', hb', hid, hbook, hkey, hstatus, herror, hid'.trans hbid,
        htenant'.trans htenant⟩
  have hsame : SameRows s { s with books } := ⟨rfl, rfl, rfl⟩
  refine ⟨⟨?_, ?_⟩, hpurging, hbooks⟩
  · exact {
      books := by
        show (books.map Book.id).Nodup
        rw [hbooks]
        exact nodup_map_updateWhere h.books fun b => (hf b).1
      jobs := h.jobs
      profiles := h.profiles
      objects := hsame.objectsOwned h.objects
      lt_nextId := h.lt_nextId
      message := fun m hm => (hpurging m).mpr (h.message m hm)
      undispatched := fun job hjob hcreated m hm =>
        (hpurging m).mpr (h.undispatched job hjob hcreated m hm) }
  · exact {
      nextId := Nat.le_refl _
      books := hpersist
      queue := List.Subset.refl _
      purging := fun m hm => (hpurging m).mpr hm
      fresh := fun m _ hm => (hpurging m).mp hm
      rows := fun t => List.Subset.refl _
      kept := fun bookId _ => hsame.kept bookId }

theorem lifecycle_of_addMessage {m : PurgeMessage} (h : LifecycleOk s) (hm : Purging m s)
    (hs' : addMessage m s = .ok ((), s')) :
    (LifecycleOk s' ∧ LifecycleMono s s') ∧ (∀ m, Purging m s' ↔ Purging m s) ∧
      s'.books = s.books := by
  have heq : s' = if s.queue.any fun m' => decide (m'.jobId = m.jobId) then s
      else { s with queue := s.queue ++ [m] } := by
    cases hs'
    rfl
  by_cases hany : (s.queue.any fun m' => decide (m'.jobId = m.jobId)) = true
  · rw [heq, if_pos hany]
    exact ⟨⟨h, refl_of LifecycleMono s⟩, fun _ => Iff.rfl, rfl⟩
  · rw [heq, if_neg hany]
    refine ⟨⟨?_, ?_⟩, fun _ => Iff.rfl, rfl⟩
    · exact {
        books := h.books
        jobs := h.jobs
        profiles := h.profiles
        objects := h.objects
        lt_nextId := h.lt_nextId
        message := by
          intro m' hm'
          rcases List.mem_append.mp hm' with hm' | hm'
          · exact h.message m' hm'
          · obtain rfl := List.mem_singleton.mp hm'
            exact hm
        undispatched := h.undispatched }
    · exact {
        nextId := Nat.le_refl _
        books := refl_of (Persist SameBook) s.books
        queue := List.subset_append_left _ _
        purging := fun _ h => h
        fresh := fun _ _ h => h
        rows := fun t => List.Subset.refl _
        kept := fun bookId _ => Kept.refl bookId s }

end books

end AudioBook.Books
