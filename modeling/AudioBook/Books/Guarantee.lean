import AudioBook.Books.Purging

/-!
# The Contract of the Lifecycle

Every program of the lifecycle keeps the invariant and takes nothing back that `LifecycleMono`
names. A purge relies on one fact from its first access to its last: its message is on the queue,
so its job is there and has not ended. A further invariant, about the books that are not deleted,
may hold on the runs whose accesses are admitted.

Main results:

- `triple_deleteBook_row`: the deletion of the book never commits.
- `GuardRules.respects`: the lifecycle keeps the contract.
-/

namespace AudioBook.Books

open Relational Concurrent

/-- What a further invariant has to satisfy on the runs with admitted accesses: it only depends on
which purges are under way and which books are live. -/
structure GuardRules (admits : BookAccess → BookStore → Prop) (J : BookStore → Prop) : Prop where
  init : ∀ s, NoPurgeUnderWay s → J s
  mono : ∀ s s', J s → (∀ m, Purging m s' → Purging m s) → (∀ bookId, s'.Live bookId →
    s.Live bookId) → J s'
  restore : ∀ s s' bookId, J s → admits (.restore bookId) s → (∀ m, Purging m s' → Purging m s) →
    (∀ bookId', s'.Live bookId' → s.Live bookId' ∨ bookId' = bookId) → J s'
  createPurge : ∀ s s' bookId tenantId, J s → admits (.createPurge bookId tenantId) s →
    (∀ m, Purging m s' → Purging m s ∨ m.bookId = bookId) →
      (∀ bookId, s'.Live bookId → s.Live bookId) → J s'

theorem guardRules_true (admits : BookAccess → BookStore → Prop) :
    GuardRules admits fun _ => True where
  init _ _ := trivial
  mono _ _ _ _ _ := trivial
  restore _ _ _ _ _ _ _ := trivial
  createPurge _ _ _ _ _ _ _ _ := trivial

variable {admits : BookAccess → BookStore → Prop} {J : BookStore → Prop}

abbrev lifecycleContract (admits : BookAccess → BookStore → Prop) (J : BookStore → Prop) :
    Contract BookStore BookAccess :=
  Contract.ofInvariant admits (fun s => LifecycleOk s ∧ J s) LifecycleMono

/-- A purge is under way, and a further fact holds. -/
def UnderWay (J : BookStore → Prop) (m : PurgeMessage) (F : BookStore → Prop) (s : BookStore) :
    Prop :=
  (LifecycleOk s ∧ J s) ∧ Purging m s ∧ F s

variable {m : PurgeMessage} {F : BookStore → Prop}

theorem underWay_stable (hF : ∀ s s', LifecycleMono s s' → F s → F s') :
    (lifecycleContract admits J).Stable (UnderWay J m F) :=
  Contract.stable_of_mono fun s s' _ hmono hs => ⟨hmono.purging m hs.1, hF s s' hmono hs.2⟩

/-- The program of a purge, which knows `F` at first. -/
def PurgeTriple (admits : BookAccess → BookStore → Prop) (J : BookStore → Prop) (m : PurgeMessage)
    (F : BookStore → Prop) {α : Type} (p : BookProg α) : Prop :=
  (lifecycleContract admits J).Triple (UnderWay J m F) p fun _ => UnderWay J m fun _ => True

/-- A part of a purge that knows nothing further. -/
abbrev PurgePart (admits : BookAccess → BookStore → Prop) (J : BookStore → Prop)
    (m : PurgeMessage) {α : Type} (p : BookProg α) : Prop :=
  PurgeTriple admits J m (fun _ => True) p

section parts

variable {α β : Type} {p : BookProg α} {q : α → BookProg β}

theorem PurgeTriple.of_imp {F' : BookStore → Prop} (h : PurgeTriple admits J m F p)
    (hF : ∀ s, F' s → F s) : PurgeTriple admits J m F' p :=
  h.mono (fun _ hs => ⟨hs.1, hs.2.1, hF _ hs.2.2⟩) fun _ _ hs => hs

theorem PurgePart.weaken (h : PurgePart admits J m p) : PurgeTriple admits J m F p :=
  h.of_imp fun _ _ => trivial

theorem PurgeTriple.bind (hp : PurgeTriple admits J m F p) (hq : ∀ a, PurgePart admits J m (q a)) :
    PurgeTriple admits J m F (p >>= q) :=
  Contract.Triple.bind hp hq

theorem PurgeTriple.bind_frame (hF : ∀ s s', LifecycleMono s s' → F s → F s')
    (hp : PurgeTriple admits J m F p) (hq : ∀ a, PurgeTriple admits J m F (q a)) :
    PurgeTriple admits J m F (p >>= q) :=
  Contract.Triple.bind (Contract.Triple.frame (underWay_stable hF) hp) fun a =>
    Contract.Triple.mono (hq a) (fun _ hs => hs.2) fun _ _ hs => hs

theorem purgePart_pure (a : α) : PurgePart admits J m (pure a : BookProg α) :=
  Contract.triple_pure fun _ hs => hs

theorem purgeTriple_query_bind {f : BookStore → α} {G : α → BookStore → Prop}
    (hF : ∀ s s', LifecycleMono s s' → F s → F s') (hG : ∀ s, UnderWay J m F s → G (f s) s)
    (hq : ∀ a, PurgeTriple admits J m (fun s => G a s ∧ F s) (q a)) :
    PurgeTriple admits J m F (query f >>= q) := by
  refine Contract.Triple.bind (G := fun a => UnderWay J m fun s => G a s ∧ F s) ?_ hq
  exact Contract.triple_read (underWay_stable hF) fun s hs => ⟨hs.1, hs.2.1, hG s hs, hs.2.2⟩

theorem purgePart_query_bind {f : BookStore → α} {G : α → BookStore → Prop}
    (hG : ∀ s, UnderWay J m (fun _ => True) s → G (f s) s)
    (hq : ∀ a, PurgeTriple admits J m (G a) (q a)) : PurgePart admits J m (query f >>= q) :=
  purgeTriple_query_bind (fun _ _ _ _ => trivial) hG fun a => (hq a).of_imp fun _ hs => hs.1

theorem PurgeTriple.tryCatch {handler : BookError → BookProg α}
    (hF : ∀ s s', LifecycleMono s s' → F s → F s') (hp : PurgeTriple admits J m F p)
    (hh : ∀ e, PurgePart admits J m (handler e)) :
    PurgeTriple admits J m F (tryCatchThe BookError p handler) :=
  Contract.Triple.tryCatch (underWay_stable hF) hp fun e => (hh e).weaken

theorem purgeTriple_run {l : BookAccess} (hF : ∀ s s', LifecycleMono s s' → F s → F s')
    (h : ∀ s s', UnderWay J m F s → l.transaction s = .ok ((), s') →
      (LifecycleOk s' ∧ J s') ∧ LifecycleMono s s') : PurgeTriple admits J m F (run l) := by
  refine Contract.triple_atomically (underWay_stable hF) fun s _ s' hs _ ht => ?_
  obtain ⟨hok, hmono⟩ := h s s' hs ht
  exact ⟨fun _ => ⟨hok, hmono⟩, hok, hmono.purging m hs.2.1, trivial⟩

end parts

variable (hJ : GuardRules admits J)

/-! ## Accesses of a Purge -/

section deletions

include hJ

theorem purgeTriple_run_of_sameJobs {l : BookAccess}
    (hF : ∀ s s', LifecycleMono s s' → F s → F s')
    (h : ∀ s s', UnderWay J m F s → l.transaction s = .ok ((), s') → SameJobs s s' ∧
      (∀ t, (s'.rows t).Sublist (s.rows t)) ∧ ∀ bookId, bookId ≠ m.bookId → Kept bookId s s') :
    PurgeTriple admits J m F (run l) := by
  refine purgeTriple_run hF fun s s' hs ht => ?_
  obtain ⟨hsame, hrows, hkept⟩ := h s s' hs ht
  refine ⟨⟨hs.1.1.of_sameJobs hsame hrows, ?_⟩, .of_sameJobs hsame hrows hs.2.1 hkept⟩
  exact hJ.mono s s' hs.1.2 (fun m hm => hsame.purging_iff.mp hm) fun _ hlive =>
    hsame.live_iff.mp hlive

theorem purgeTriple_deleteRows {l : BookAccess} {t : BookTable} {p : BookRow t → Bool}
    (hl : l.transaction = deleteRows t p) (hF : ∀ s s', LifecycleMono s s' → F s → F s')
    (hp : ∀ s, F s → ∀ row ∈ s.rows t, p row = true → ∀ bookId, BelongsTo bookId s t row →
      bookId = m.bookId) : PurgeTriple admits J m F (run l) := by
  refine purgeTriple_run_of_sameJobs hJ hF fun s s' hs ht => ?_
  obtain rfl : s' = s.setRows t ((s.rows t).filter fun row => !p row) := by
    rw [hl] at ht
    cases ht
    rfl
  exact ⟨⟨rfl, rfl, rfl, rfl⟩, fun t' => setRows_filter_sublist t',
    fun bookId hne => kept_of_deleteRows (hp s hs.2.2) hne⟩

theorem purgePart_deleteByBookId {t : BookTable} (ht : t ≠ .voiceProfileVersion) :
    PurgePart admits J m (run (.deleteByBookId t m.bookId)) := by
  refine purgeTriple_deleteRows hJ rfl (fun _ _ _ _ => trivial) fun s _ row _ hp bookId hbelongs => ?_
  have hbook : row.bookId = some m.bookId := by simpa using hp
  have hbook' : row.bookId = some bookId := by
    cases t with
    | voiceProfileVersion => exact absurd rfl ht
    | jobDependency => exact absurd hbelongs id
    | _ => exact hbelongs
  exact Option.some.inj (hbook'.symm.trans hbook)

theorem purgePart_deleteManyByBookIdAll {ts : List BookTable}
    (hts : ∀ t ∈ ts, t ≠ .voiceProfileVersion) :
    PurgePart admits J m (deleteManyByBookIdAll ts m.bookId) := by
  induction ts with
  | nil => exact purgePart_pure ()
  | cons t ts ih =>
    exact (purgePart_deleteByBookId hJ (hts t List.mem_cons_self)).bind fun _ =>
      ih fun t' ht' => hts t' (List.mem_cons_of_mem _ ht')

theorem purgePart_deleteBookProfiles :
    PurgePart admits J m (run (.deleteBookProfiles m.bookId)) := by
  refine purgeTriple_deleteRows hJ rfl (fun _ _ _ _ => trivial) fun s _ row _ hp bookId hbelongs => ?_
  have hbook : row.bookId = some m.bookId ∧ row.scope = .book := by simpa using hp
  have hbook' : row.bookId = some bookId := hbelongs
  exact Option.some.inj (hbook'.symm.trans hbook.1)

theorem purgePart_deleteDependencies (jobIds : List Id) :
    PurgePart admits J m (run (.deleteDependencies jobIds)) :=
  purgeTriple_deleteRows hJ rfl (fun _ _ _ _ => trivial) fun _ _ _ _ _ _ hbelongs =>
    absurd hbelongs id

/-- The voice profile is one of the book, as long as it is there. -/
def OwnProfile (bookId profileId : Id) (s : BookStore) : Prop :=
  ∀ profile ∈ s.rows .voiceProfile, profile.id = profileId → profile.bookId = some bookId

omit hJ in
theorem ownProfile_stable {bookId profileId : Id} (s s' : BookStore) (h : LifecycleMono s s')
    (hs : OwnProfile bookId profileId s) : OwnProfile bookId profileId s' :=
  fun profile hprofile hid => hs profile (h.rows .voiceProfile hprofile) hid

theorem purgeTriple_deleteVersions (profileId : Id) :
    PurgeTriple admits J m (OwnProfile m.bookId profileId) (run (.deleteVersions profileId)) := by
  refine purgeTriple_deleteRows hJ rfl ownProfile_stable fun s hs row _ hp bookId hbelongs => ?_
  obtain ⟨profile, hprofile, hid, hbook, -⟩ := hbelongs
  have hversion : (row.data : VoiceProfileVersionData).voiceProfileId = profileId := by
    simpa using hp
  exact Option.some.inj (hbook.symm.trans (hs profile hprofile (hid.trans hversion)))

omit hJ in
theorem ownKey_stable {bookId : Id} {key : StorageKey} (s s' : BookStore) (h : LifecycleMono s s')
    (hs : OwnKey bookId key s) : OwnKey bookId key s' :=
  fun t row hrow hkey bookId' hbelongs =>
    hs t row (h.rows t hrow) hkey bookId' (hbelongs.of_subset (h.rows _))

theorem purgeTriple_deleteObjects (keys : List StorageKey) :
    PurgeTriple admits J m (fun s => ∀ key ∈ keys, OwnKey m.bookId key s) (deleteObjects keys) := by
  induction keys with
  | nil => exact (purgePart_pure ()).weaken
  | cons key keys ih =>
    have hstable : ∀ s s', LifecycleMono s s' → (∀ k ∈ key :: keys, OwnKey m.bookId k s) →
        ∀ k ∈ key :: keys, OwnKey m.bookId k s' :=
      fun s s' h hs k hk => ownKey_stable s s' h (hs k hk)
    refine PurgeTriple.bind_frame hstable ?_ fun _ =>
      ih.of_imp fun s hs k hk => hs k (List.mem_cons_of_mem _ hk)
    refine PurgeTriple.tryCatch hstable ?_ fun _ => purgePart_pure ()
    refine purgeTriple_run_of_sameJobs hJ hstable fun s s' hs ht => ?_
    obtain rfl : s' = { s with objects := s.objects.filter fun k => decide (k ≠ key) } := by
      cases ht
      rfl
    exact ⟨⟨rfl, rfl, rfl, rfl⟩, fun t => List.Sublist.refl _,
      fun bookId hne => (hs.2.2 key List.mem_cons_self).kept hne⟩

/-! ## Steps of a Purge -/

theorem purgePart_purgeArtifactTable {t : BookTable} (ht : t ≠ .voiceProfileVersion)
    (ht' : t ≠ .bookFile) : PurgePart admits J m (purgeArtifactTable t m.bookId) := by
  refine purgePart_query_bind (G := fun rows s =>
    ∀ key ∈ rows.flatMap BookRow.objectKeys, OwnKey m.bookId key s) ?_ fun rows => ?_
  · intro s hs key hkey
    obtain ⟨row, hrow, hkey⟩ := List.mem_flatMap.mp hkey
    obtain ⟨hrow, hbook⟩ := List.mem_filter.mp hrow
    have hbook : row.bookId = some m.bookId := by simpa using hbook
    cases t with
    | voiceProfileVersion => exact absurd rfl ht
    | jobDependency => exact absurd hkey List.not_mem_nil
    | _ => exact hs.1.1.ownKey hrow ht' hbook hkey
  · exact (purgeTriple_deleteObjects hJ _).bind fun _ => purgePart_deleteByBookId hJ ht

/-- The voice profile and the objects of its versions are the book's alone. -/
structure OwnVersions (bookId profileId : Id) (s : BookStore) : Prop where
  profile : OwnProfile bookId profileId s
  keys : ∀ row ∈ s.rows .voiceProfileVersion,
    (row.data : VoiceProfileVersionData).voiceProfileId = profileId →
      ∀ key ∈ row.objectKeys, OwnKey bookId key s

omit hJ in
theorem ownVersions_stable {bookId profileId : Id} (s s' : BookStore) (h : LifecycleMono s s')
    (hs : OwnVersions bookId profileId s) : OwnVersions bookId profileId s' where
  profile := ownProfile_stable s s' h hs.profile
  keys row hrow hid key hkey := ownKey_stable s s' h (hs.keys row (h.rows _ hrow) hid key hkey)

omit hJ in
theorem LifecycleOk.ownVersions {s : BookStore} (h : LifecycleOk s) {bookId : Id}
    {profile : BookRow .voiceProfile} (hprofile : profile ∈ findBookProfiles bookId s) :
    OwnVersions bookId profile.id s := by
  obtain ⟨hmem, hbook⟩ := List.mem_filter.mp hprofile
  obtain ⟨hbook, hscope⟩ : profile.bookId = some bookId ∧ profile.scope = .book := by simpa using hbook
  refine ⟨fun profile' hmem' hid => ?_, fun row hrow hid key hkey => ?_⟩
  · rw [List.inj_on_of_nodup_map h.profiles hmem' hmem hid]
    exact hbook
  · exact h.ownKey hrow (by decide) ⟨profile, hmem, hid.symm, hbook, hscope⟩ hkey

theorem purgeTriple_purgeVersions (profiles : List (BookRow .voiceProfile)) :
    PurgeTriple admits J m (fun s => ∀ profile ∈ profiles, OwnVersions m.bookId profile.id s)
      (purgeVersions profiles) := by
  induction profiles with
  | nil => exact (purgePart_pure ()).weaken
  | cons profile profiles ih =>
    -- What is known of the profiles stays known, so it frames the steps on the first one.
    have hstable : ∀ s s', LifecycleMono s s' →
        (∀ p ∈ profile :: profiles, OwnVersions m.bookId p.id s) →
          ∀ p ∈ profile :: profiles, OwnVersions m.bookId p.id s' :=
      fun s s' h hs p hp => ownVersions_stable s s' h (hs p hp)
    refine purgeTriple_query_bind (G := fun versions s =>
      ∀ key ∈ versions.flatMap BookRow.objectKeys, OwnKey m.bookId key s) hstable ?_
      fun versions => ?_
    · intro s hs key hkey
      obtain ⟨row, hrow, hkey⟩ := List.mem_flatMap.mp hkey
      obtain ⟨hrow, hid⟩ := List.mem_filter.mp hrow
      exact (hs.2.2 profile List.mem_cons_self).keys row hrow (by simpa using hid) key hkey
    refine PurgeTriple.bind_frame (fun s s' h hs =>
      ⟨fun key hkey => ownKey_stable s s' h (hs.1 key hkey), hstable s s' h hs.2⟩)
      ((purgeTriple_deleteObjects hJ _).of_imp fun _ hs => hs.1) fun _ => ?_
    refine PurgeTriple.of_imp ?_ fun _ hs => hs.2
    refine PurgeTriple.bind_frame hstable ((purgeTriple_deleteVersions hJ profile.id).of_imp
      fun _ hs => (hs profile List.mem_cons_self).profile) fun _ => ?_
    exact ih.of_imp fun _ hs p hp => hs p (List.mem_cons_of_mem _ hp)

theorem purgePart_purgeBookScopedVoiceProfiles :
    PurgePart admits J m (purgeBookScopedVoiceProfiles m.bookId) := by
  refine purgePart_query_bind (G := fun profiles s =>
    ∀ profile ∈ profiles, OwnVersions m.bookId profile.id s) ?_ fun profiles => ?_
  · exact fun s hs profile hprofile => hs.1.1.ownVersions hprofile
  · exact (purgeTriple_purgeVersions hJ profiles).bind fun _ => purgePart_deleteBookProfiles hJ

/-- Apart from source files, only rows of the book refer to the object. -/
def OwnBesidesFiles (bookId : Id) (key : StorageKey) (s : BookStore) : Prop :=
  ∀ t, t ≠ .bookFile → ∀ row ∈ s.rows t, key ∈ row.objectKeys → ∀ bookId',
    BelongsTo bookId' s t row → bookId' = bookId

omit hJ in
theorem ownBesidesFiles_stable {bookId : Id} {key : StorageKey} (s s' : BookStore)
    (h : LifecycleMono s s') (hs : OwnBesidesFiles bookId key s) :
    OwnBesidesFiles bookId key s' :=
  fun t ht row hrow hkey bookId' hbelongs =>
    hs t ht row (h.rows t hrow) hkey bookId' (hbelongs.of_subset (h.rows _))

omit hJ in
theorem OwnBesidesFiles.ownKey {s : BookStore} {bookId : Id} {key : StorageKey}
    (h : OwnBesidesFiles bookId key s) (hshared : otherReference key bookId s = false) :
    OwnKey bookId key s := by
  intro t row hrow hkey bookId' hbelongs
  by_cases ht : t = .bookFile
  · subst ht
    have hbook : row.bookId = some bookId' := hbelongs
    have hsame : (row.data : BookFileData).storageKey = key := (List.mem_singleton.mp hkey).symm
    have hnone := List.any_eq_false.mp hshared row hrow
    simpa [hsame, hbook] using hnone
  · exact h t ht row hrow hkey bookId' hbelongs

theorem purgeTriple_purgeFileObjects (files : List (BookRow .bookFile)) :
    PurgeTriple admits J m (fun s => ∀ file ∈ files,
      OwnBesidesFiles m.bookId (file.data : BookFileData).storageKey s)
      (purgeFileObjects m.bookId files) := by
  induction files with
  | nil => exact (purgePart_pure 0).weaken
  | cons file files ih =>
    have hstable : ∀ s s', LifecycleMono s s' →
        (∀ f ∈ file :: files, OwnBesidesFiles m.bookId (f.data : BookFileData).storageKey s) →
          ∀ f ∈ file :: files, OwnBesidesFiles m.bookId (f.data : BookFileData).storageKey s' :=
      fun s s' h hs f hf => ownBesidesFiles_stable s s' h (hs f hf)
    refine purgeTriple_query_bind (G := fun shared s => shared = false →
      OwnKey m.bookId (file.data : BookFileData).storageKey s) hstable ?_ fun shared => ?_
    · exact fun s hs hshared => (hs.2.2 file List.mem_cons_self).ownKey hshared
    have hstable' : ∀ s s', LifecycleMono s s' →
        ((shared = false → OwnKey m.bookId (file.data : BookFileData).storageKey s) ∧
          ∀ f ∈ file :: files, OwnBesidesFiles m.bookId (f.data : BookFileData).storageKey s) →
        ((shared = false → OwnKey m.bookId (file.data : BookFileData).storageKey s') ∧
          ∀ f ∈ file :: files, OwnBesidesFiles m.bookId (f.data : BookFileData).storageKey s') :=
      fun s s' h hs => ⟨fun hshared => ownKey_stable s s' h (hs.1 hshared), hstable s s' h hs.2⟩
    have hrest : ∀ freed, PurgeTriple admits J m (fun s =>
        (shared = false → OwnKey m.bookId (file.data : BookFileData).storageKey s) ∧
          ∀ f ∈ file :: files, OwnBesidesFiles m.bookId (f.data : BookFileData).storageKey s)
        (do
          let rest ← purgeFileObjects m.bookId files
          return freed + rest) := fun freed =>
      PurgeTriple.bind (ih.of_imp fun s hs f hf => hs.2 f (List.mem_cons_of_mem _ hf))
        fun rest => purgePart_pure _
    cases shared with
    | true => exact hrest 0
    | false =>
      refine PurgeTriple.bind_frame hstable' ?_ fun _ => hrest (file.data : BookFileData).sizeBytes
      refine (purgeTriple_deleteObjects hJ _).of_imp fun s hs key hkey => ?_
      obtain rfl := List.mem_singleton.mp hkey
      exact hs.1 rfl

theorem purgePart_recordStorageBytesDelta (delta : ℤ) :
    PurgePart admits J m (recordStorageBytesDelta delta) := by
  refine PurgeTriple.tryCatch (fun _ _ _ _ => trivial) ?_ fun _ => purgePart_pure ()
  refine purgeTriple_run_of_sameJobs hJ (fun _ _ _ _ => trivial) fun s s' hs ht => ?_
  obtain rfl : s' = { s with storageBytes := s.storageBytes + delta } := by
    cases ht
    rfl
  exact ⟨⟨rfl, rfl, rfl, rfl⟩, fun t => List.Sublist.refl _, fun bookId _ => Kept.refl bookId s⟩

theorem purgePart_purgeBookFiles : PurgePart admits J m (purgeBookFiles m.bookId) := by
  refine purgePart_query_bind (G := fun files s => ∀ file ∈ files,
    OwnBesidesFiles m.bookId (file.data : BookFileData).storageKey s) ?_ fun files => ?_
  · intro s hs file hfile t ht row hrow hkey bookId' hbelongs
    obtain ⟨hfile, hbook⟩ := List.mem_filter.mp hfile
    have hbook : file.bookId = some m.bookId := by simpa using hbook
    exact hs.1.1.objects t row hrow .bookFile file hfile bookId' m.bookId _ (.inl ht) hbelongs hbook
      hkey List.mem_cons_self
  · refine (purgeTriple_purgeFileObjects hJ files).bind fun freed => ?_
    refine (purgePart_deleteByBookId hJ (by decide)).bind fun _ => ?_
    split
    · exact purgePart_recordStorageBytesDelta hJ _
    · exact purgePart_pure ()

theorem purgePart_purgeArtifacts : PurgePart admits J m (purgeArtifacts m.bookId) := by
  have hartifact : ∀ t, t ≠ .voiceProfileVersion → t ≠ .bookFile →
      PurgePart admits J m (purgeArtifactTable t m.bookId) :=
    fun t ht ht' => purgePart_purgeArtifactTable hJ ht ht'
  have hrows : ∀ t, t ≠ .voiceProfileVersion → PurgePart admits J m (deleteManyByBookId t m.bookId) :=
    fun t ht => purgePart_deleteByBookId hJ ht
  refine (hartifact .audiobookRendition (by decide) (by decide)).bind fun _ => ?_
  refine (hartifact .audiobookCover (by decide) (by decide)).bind fun _ => ?_
  refine (hrows .audiobookChapter (by decide)).bind fun _ => ?_
  refine (hartifact .audiobook (by decide) (by decide)).bind fun _ => ?_
  refine (hrows .chapterAudioMember (by decide)).bind fun _ => ?_
  refine (hartifact .chapterAudio (by decide) (by decide)).bind fun _ => ?_
  refine (hartifact .audioChunk (by decide) (by decide)).bind fun _ => ?_
  refine (purgePart_deleteManyByBookIdAll hJ (by decide)).bind fun _ => ?_
  refine (hartifact .voicePreview (by decide) (by decide)).bind fun _ => ?_
  refine (hrows .voiceAssignment (by decide)).bind fun _ => ?_
  refine (purgePart_purgeBookScopedVoiceProfiles hJ).bind fun _ => ?_
  refine (purgePart_deleteManyByBookIdAll hJ (by decide)).bind fun _ => ?_
  refine (hartifact .bookVersion (by decide) (by decide)).bind fun _ => ?_
  exact purgePart_purgeBookFiles hJ

theorem purgePart_purgeJobsAndAttempts :
    PurgePart admits J m (purgeJobsAndAttempts m.bookId m.jobId) := by
  refine (purgePart_deleteByBookId hJ (by decide)).bind fun _ => ?_
  refine purgePart_query_bind (G := fun jobIds s => ∀ jobId ∈ jobIds, jobId < s.nextId ∧
    ∀ m', m'.jobId = jobId → ¬ Purging m' s) ?_ fun jobIds => ?_
  · intro s hs jobId hjobId
    obtain ⟨job, hjob, rfl⟩ := List.mem_map.mp hjobId
    obtain ⟨hjob, hother⟩ := List.mem_filter.mp hjob
    obtain ⟨hbook, hne⟩ : job.bookId = some m.bookId ∧ job.id ≠ m.jobId := by simpa using hother
    refine ⟨hs.1.1.lt_nextId job hjob, fun m' hid hpurging => ?_⟩
    obtain ⟨job', hjob', _, _, hid', hbook', -⟩ := id hpurging
    have hsame : job' = job :=
      List.inj_on_of_nodup_map hs.1.1.accepts.1 hjob' hjob (hid'.trans hid)
    have hbooks : m'.bookId = m.bookId :=
      Option.some.inj (hbook'.symm.trans (hsame ▸ hbook))
    exact hne (hid.symm.trans (congrArg PurgeMessage.jobId
      (hs.1.1.purging_unique hpurging hs.2.1 hbooks)))
  have hstable : ∀ s s', LifecycleMono s s' →
      (∀ jobId ∈ jobIds, jobId < s.nextId ∧ ∀ m', m'.jobId = jobId → ¬ Purging m' s) →
        ∀ jobId ∈ jobIds, jobId < s'.nextId ∧ ∀ m', m'.jobId = jobId → ¬ Purging m' s' := by
    intro s s' h hs jobId hjobId
    obtain ⟨hlt, hnone⟩ := hs jobId hjobId
    refine ⟨Nat.lt_of_lt_of_le hlt h.nextId, fun m' hid hpurging => hnone m' hid ?_⟩
    exact h.fresh m' (hid ▸ hlt) hpurging
  split
  · exact (purgePart_pure ()).weaken
  · refine PurgeTriple.bind_frame hstable (purgePart_deleteDependencies hJ jobIds).weaken fun _ => ?_
    refine purgeTriple_run hstable fun s s' hs ht => ?_
    obtain ⟨⟨hok, hmono⟩, hpurging, hbooks⟩ := lifecycle_of_deleteJobs hs.1.1
      (fun jobId hjobId => (hs.2.2 jobId hjobId).2) ht
    refine ⟨⟨hok, hJ.mono s s' hs.1.2 (fun m hm => (hpurging m).mp hm) fun bookId hlive => ?_⟩, hmono⟩
    rwa [BookStore.Live, hbooks] at hlive

end deletions

/-! ## The Purge -/

theorem deleteBookRow_eq_error {s : BookStore} (hm : Purging m s) :
    deleteBookRow m.bookId s = .error (.violation .foreignKey) := by
  obtain ⟨job, hjob, b, hb, -, hjobBook, -, -, -, hid, -⟩ := hm
  refine (Transaction.bind_eq_of_ok (a := s) rfl).trans ?_
  rw [if_pos]
  · rfl
  · refine ⟨List.any_eq_true.mpr ⟨b, hb, by simpa using hid⟩, .inl ?_⟩
    exact List.any_eq_true.mpr ⟨job, hjob, by simpa using hjobBook⟩

theorem triple_deleteBook_row :
    (lifecycleContract admits J).Triple (UnderWay J m fun _ => True) (run (.deleteBook m.bookId))
      fun _ _ => False := by
  refine Contract.triple_atomically (underWay_stable fun _ _ _ _ => trivial) fun s a s' hs _ ht => ?_
  rw [show (BookAccess.deleteBook m.bookId).transaction s = deleteBookRow m.bookId s from rfl,
    deleteBookRow_eq_error hs.2.1] at ht
  cases ht

theorem purgePart_failPurge : PurgePart admits J m (run (.failPurge m.jobId)) := by
  refine purgeTriple_run (fun _ _ _ _ => trivial) fun s s' hs ht => ?_
  obtain ⟨job, hjob, _, _, hid, -, -, -, herror, -⟩ := hs.2.1
  obtain ⟨_, _, hget, ht⟩ := Transaction.bind_eq_ok_iff.mp ht
  cases hget
  split at ht
  · obtain ⟨hacc, -⟩ := (Table.update_eq_ok_iff _).mp ht
    have hfailed := (processingJob_accepts_iff.mp hacc).2.2 { job with status := .failed }
      (mem_updateWhere.mpr (.inl ⟨job, hjob, by simpa using hid, rfl⟩)) (by simp)
    simp [herror] at hfailed
  · cases ht

include hJ

theorem purgePart_startPurge : PurgePart admits J m (run (.startPurge m.jobId)) := by
  refine purgeTriple_run (fun _ _ _ _ => trivial) fun s s' hs ht => ?_
  have hactive : ∀ job ∈ s.processingJobs, job.id = m.jobId →
      (JobStatus.running ∈ [.created, .running] ↔ job.status ∈ [.created, .running]) := by
    intro job hjob hid
    obtain ⟨job', hjob', _, _, hid', -, -, hstatus, -⟩ := hs.2.1
    obtain rfl : job = job' :=
      List.inj_on_of_nodup_map hs.1.1.accepts.1 hjob hjob' (hid.trans hid'.symm)
    exact iff_of_true (by simp) hstatus
  obtain ⟨⟨hok, hmono⟩, hpurging, hbooks⟩ := lifecycle_of_updateJob hs.1.1
    (f := fun job => { job with status := .running }) (fun job => ⟨rfl, rfl, rfl, rfl, rfl, rfl⟩)
    hactive (by simp) ht
  refine ⟨⟨hok, hJ.mono s s' hs.1.2 (fun m hm => (hpurging m).mp hm) fun bookId hlive => ?_⟩, hmono⟩
  rwa [BookStore.Live, hbooks] at hlive

theorem purgePart_purgeSteps : PurgePart admits J m (purgeSteps m.jobId m.bookId) := by
  refine (purgePart_purgeArtifacts hJ).bind fun _ => ?_
  refine (purgePart_purgeJobsAndAttempts hJ).bind fun _ => ?_
  refine (purgePart_deleteByBookId hJ (by decide)).bind fun _ => ?_
  exact Contract.Triple.bind triple_deleteBook_row fun _ s hs => hs.elim

theorem purgePart_runPurgeBook : PurgePart admits J m (runPurgeBook m.jobId m.bookId) := by
  refine purgePart_query_bind (G := fun _ _ => True) (fun _ _ => trivial) fun job => ?_
  match job with
  | none => exact purgePart_pure ()
  | some job =>
    show PurgePart admits J m (if job.status = .succeeded then pure () else do
      run (.startPurge m.jobId)
      tryCatchThe BookError (purgeSteps m.jobId m.bookId) fun err => do
        run (.failPurge m.jobId)
        throw err)
    split
    · exact purgePart_pure ()
    · refine (purgePart_startPurge hJ).bind fun _ => ?_
      refine PurgeTriple.tryCatch (fun _ _ _ _ => trivial) (purgePart_purgeSteps hJ) fun err => ?_
      exact purgePart_failPurge.bind fun _ => Contract.triple_throw

/-! ## The Other Programs -/

theorem purgePart_enqueueProcessingJob : PurgePart admits J m (enqueueProcessingJob m) := by
  have hsame : ∀ {s s' : BookStore}, s'.books = s.books → ∀ bookId, s'.Live bookId → s.Live bookId :=
    fun hbooks bookId hlive => by rwa [BookStore.Live, hbooks] at hlive
  refine PurgeTriple.bind (purgeTriple_run (fun _ _ _ _ => trivial) fun s s' hs ht => ?_) fun _ =>
    purgeTriple_run (fun _ _ _ _ => trivial) fun s s' hs ht => ?_
  · obtain ⟨⟨hok, hmono⟩, hpurging, hbooks⟩ := lifecycle_of_addMessage hs.1.1 hs.2.1 ht
    exact ⟨⟨hok, hJ.mono s s' hs.1.2 (fun m hm => (hpurging m).mp hm) (hsame hbooks)⟩, hmono⟩
  · obtain ⟨⟨hok, hmono⟩, hpurging, hbooks⟩ := lifecycle_of_updateJob hs.1.1
      (f := fun job => { job with queued := true }) (fun job => ⟨rfl, rfl, rfl, rfl, rfl, rfl⟩)
      (fun _ _ _ => Iff.rfl) (fun _ h => h) ht
    exact ⟨⟨hok, hJ.mono s s' hs.1.2 (fun m hm => (hpurging m).mp hm) (hsame hbooks)⟩, hmono⟩

theorem triple_resend (messages : List PurgeMessage) :
    (lifecycleContract admits J).Triple
      (fun s => (LifecycleOk s ∧ J s) ∧ ∀ m ∈ messages, Purging m s) (resend messages)
      fun _ _ => True := by
  induction messages with
  | nil => exact Contract.triple_pure fun _ _ => trivial
  | cons m messages ih =>
    have hstable : ∀ s s', LifecycleMono s s' → (∀ m' ∈ m :: messages, Purging m' s) →
        ∀ m' ∈ m :: messages, Purging m' s' :=
      fun s s' h hs m' hm' => h.purging m' (hs m' hm')
    have hsend : (lifecycleContract admits J).Triple
        (fun s => (LifecycleOk s ∧ J s) ∧ ∀ m' ∈ m :: messages, Purging m' s)
        (tryCatchThe BookError (enqueueProcessingJob m) fun _ => pure ()) fun _ _ => True := by
      refine Contract.Triple.mono (PurgeTriple.tryCatch (m := m) (F := fun _ => True)
        (fun _ _ _ _ => trivial) (purgePart_enqueueProcessingJob hJ) fun _ => purgePart_pure ()) ?_
        fun _ _ _ => trivial
      exact fun s hs => ⟨hs.1, hs.2 m List.mem_cons_self, trivial⟩
    refine Contract.Triple.bind (Contract.Triple.frame
      (Contract.stable_of_mono fun s s' _ h hs => hstable s s' h hs) hsend) fun _ => ?_
    exact ih.mono (fun s hs => ⟨hs.2.1, fun m' hm' => hs.2.2 m' (List.mem_cons_of_mem _ hm')⟩)
      fun _ _ h => h

theorem triple_pollOnce :
    (lifecycleContract admits J).Triple (fun s => LifecycleOk s ∧ J s) pollOnce
      fun _ _ => True := by
  refine Contract.Triple.bind (Contract.triple_read Contract.stable_invariant fun s hs => ⟨hs, ?_⟩)
    fun messages => triple_resend hJ messages
  intro m hm
  obtain ⟨job, hjob, henvelope⟩ := List.mem_filterMap.mp hm
  obtain ⟨hjob, hcreated⟩ := List.mem_filter.mp hjob
  obtain ⟨hcreated, -⟩ : job.status = .created ∧ job.queued = false := by simpa using hcreated
  exact hs.1.undispatched job hjob hcreated m henvelope

omit hJ in
theorem triple_query_bind {α β : Type} {F : BookStore → Prop} {f : BookStore → α}
    {q : α → BookProg β} {H : β → BookStore → Prop} (hF : (lifecycleContract admits J).Stable F)
    (hq : ∀ a, (lifecycleContract admits J).Triple F (q a) H) :
    (lifecycleContract admits J).Triple F (query f >>= q) H :=
  Contract.Triple.bind (Contract.triple_read hF fun _ hs => hs) hq

omit hJ in
theorem triple_bookPurgeGuard_bind {β : Type} {F : BookStore → Prop} {bookId : Id} {q : BookProg β}
    {H : β → BookStore → Prop} (hF : (lifecycleContract admits J).Stable F)
    (hq : (lifecycleContract admits J).Triple F q H) :
    (lifecycleContract admits J).Triple F (do
      bookPurgeGuard bookId
      q) H := by
  refine Contract.Triple.bind (G := fun _ => F) (triple_query_bind hF fun purged => ?_) fun _ => hq
  split
  · exact Contract.triple_throw
  · exact Contract.triple_pure fun _ hs => hs

omit hJ in
theorem triple_requireTenantOwner_bind {β : Type} {F : BookStore → Prop} {principal : Principal}
    {q : BookProg β} {H : β → BookStore → Prop}
    (hq : (lifecycleContract admits J).Triple F q H) :
    (lifecycleContract admits J).Triple F (do
      requireTenantOwner principal
      q) H := by
  refine Contract.Triple.bind (G := fun _ => F) ?_ fun _ => hq
  rw [requireTenantOwner]
  split
  · exact Contract.triple_pure fun _ hs => hs
  · exact Contract.triple_throw

def Owned (tenantId bookId : Id) (s : BookStore) : Prop :=
  ∃ b ∈ s.books, b.id = bookId ∧ b.tenantId = tenantId

omit hJ in
theorem owned_stable {tenantId bookId : Id} (s s' : BookStore) (h : LifecycleMono s s')
    (hs : Owned tenantId bookId s) : Owned tenantId bookId s' := by
  obtain ⟨b, hb, hid, htenant⟩ := hs
  obtain ⟨b', hb', hid', htenant'⟩ := h.books b hb
  exact ⟨b', hb', hid'.trans hid, htenant'.trans htenant⟩

omit hJ in
theorem triple_requireOwnedBook_bind {β : Type} {principal : Principal} {bookId : Id}
    {q : Book → BookProg β} {H : β → BookStore → Prop}
    (hq : ∀ b, (lifecycleContract admits J).Triple
      (fun s => (LifecycleOk s ∧ J s) ∧ Owned principal.tenantId bookId s) (q b) H) :
    (lifecycleContract admits J).Triple (fun s => LifecycleOk s ∧ J s)
      (requireOwnedBook principal bookId >>= q) H := by
  refine Contract.Triple.bind ?_ hq
  refine Contract.Triple.bind (G := fun found s => (LifecycleOk s ∧ J s) ∧
    (found.isSome → Owned principal.tenantId bookId s))
    (Contract.triple_read Contract.stable_invariant fun s hs => ⟨hs, fun hfound => ?_⟩) fun found => ?_
  · obtain ⟨b, hb⟩ := Option.isSome_iff_exists.mp hfound
    have hfound : b.id = bookId ∧ b.tenantId = principal.tenantId := by simpa using List.find?_some hb
    exact ⟨b, List.mem_of_find?_eq_some hb, hfound⟩
  · cases found with
    | none => exact Contract.triple_throw
    | some b => exact Contract.triple_pure fun s hs => ⟨hs.1, hs.2 rfl⟩

variable (principal : Principal)

theorem triple_deleteBook (bookId : Id) :
    (lifecycleContract admits J).Triple (fun s => LifecycleOk s ∧ J s)
      (Books.deleteBook principal bookId) fun _ _ => True := by
  have hstable : (lifecycleContract admits J).Stable
      fun s => (LifecycleOk s ∧ J s) ∧ Owned principal.tenantId bookId s :=
    Contract.stable_of_mono fun s s' _ h hs => owned_stable s s' h hs
  refine triple_bookPurgeGuard_bind Contract.stable_invariant ?_
  refine triple_requireOwnedBook_bind fun b => ?_
  split
  · exact Contract.triple_pure fun _ _ => trivial
  refine triple_query_bind hstable fun activeJobs => ?_
  split
  · exact Contract.triple_throw
  refine Contract.triple_atomically hstable fun s _ s' hs _ ht => ⟨fun _ => ?_, trivial⟩
  obtain ⟨⟨hok, hmono⟩, hpurging, hbooks⟩ := lifecycle_of_updateBook hs.1.1
    (f := fun b => { b with deleted := true }) (fun b => ⟨rfl, rfl⟩) ht
  refine ⟨⟨hok, hJ.mono s s' hs.1.2 (fun m hm => (hpurging m).mp hm) ?_⟩, hmono⟩
  rintro bookId' ⟨b', hb', hid, hdeleted⟩
  rw [hbooks] at hb'
  rcases mem_updateWhere.mp hb' with ⟨_, -, -, rfl⟩ | ⟨hb', -⟩
  · cases hdeleted
  · exact ⟨b', hb', hid, hdeleted⟩

theorem triple_restoreBook (bookId : Id) :
    (lifecycleContract admits J).Triple (fun s => LifecycleOk s ∧ J s)
      (Books.restoreBook principal bookId) fun _ _ => True := by
  refine triple_bookPurgeGuard_bind Contract.stable_invariant ?_
  refine triple_requireTenantOwner_bind ?_
  refine triple_requireOwnedBook_bind fun b => ?_
  split
  · exact Contract.triple_throw
  refine Contract.triple_atomically (Contract.stable_of_mono fun s s' _ h hs =>
    owned_stable s s' h hs) fun s _ s' hs hadmits ht => ⟨fun _ => ?_, trivial⟩
  obtain ⟨⟨hok, hmono⟩, hpurging, hbooks⟩ := lifecycle_of_updateBook hs.1.1
    (f := fun b => { b with deleted := false }) (fun b => ⟨rfl, rfl⟩) ht
  refine ⟨⟨hok, hJ.restore s s' bookId hs.1.2 hadmits (fun m hm => (hpurging m).mp hm) ?_⟩, hmono⟩
  rintro bookId' ⟨b', hb', hid, hdeleted⟩
  rw [hbooks] at hb'
  rcases mem_updateWhere.mp hb' with ⟨b₀, -, hb₀, rfl⟩ | ⟨hb', -⟩
  · exact .inr (hid.symm.trans (by simpa using hb₀))
  · exact .inl ⟨b', hb', hid, hdeleted⟩

theorem triple_purgeBook (bookId confirmBookId : Id) :
    (lifecycleContract admits J).Triple (fun s => LifecycleOk s ∧ J s)
      (Books.purgeBook principal bookId confirmBookId) fun _ _ => True := by
  have hstable : (lifecycleContract admits J).Stable
      fun s => (LifecycleOk s ∧ J s) ∧ Owned principal.tenantId bookId s :=
    Contract.stable_of_mono fun s s' _ h hs => owned_stable s s' h hs
  refine triple_bookPurgeGuard_bind Contract.stable_invariant ?_
  refine triple_requireTenantOwner_bind ?_
  split
  · exact Contract.triple_throw
  refine triple_requireOwnedBook_bind fun b => ?_
  split
  · exact Contract.triple_throw
  refine triple_query_bind hstable fun activeJobs => ?_
  split
  · exact Contract.triple_throw
  refine Contract.Triple.bind (G := fun jobId => UnderWay J ⟨jobId, bookId⟩ fun _ => True)
    (Contract.triple_atomically hstable fun s jobId s' hs hadmits ht => ?_) fun jobId =>
      Contract.Triple.forget (purgePart_enqueueProcessingJob (m := ⟨jobId, bookId⟩) hJ)
  obtain ⟨⟨hok, hmono⟩, hpurging, hcases, hbooks⟩ := lifecycle_of_createPurge hs.1.1 hs.2 ht
  have hj : J s' := by
    refine hJ.createPurge s s' bookId principal.tenantId hs.1.2 hadmits (fun m hm => ?_) ?_
    · exact (hcases m hm).imp_right (congrArg PurgeMessage.bookId)
    · exact fun bookId' hlive => by rwa [BookStore.Live, hbooks] at hlive
  exact ⟨fun _ => ⟨⟨hok, hj⟩, hmono⟩, ⟨hok, hj⟩, hpurging, trivial⟩

omit hJ in
theorem NoPurgeUnderWay.lifecycleOk {s : BookStore} (h : NoPurgeUnderWay s) : LifecycleOk s where
  books := h.books
  jobs := h.jobs
  profiles := h.profiles
  objects := h.objects
  lt_nextId := h.lt_nextId
  message m hm := by
    rw [h.queue] at hm
    cases hm
  undispatched job hjob hcreated m hm := by
    rw [h.dispatched job hjob hcreated] at hm
    cases hm

theorem GuardRules.respects : lifecycleSystem.Respects (lifecycleContract admits J) := by
  intro s₀ s r hinit hev henabled
  have hs : LifecycleOk s ∧ J s := (hev ⟨hinit.lifecycleOk, hJ.init s₀ hinit⟩).1
  cases r with
  | deleteBook principal bookId => exact (triple_deleteBook hJ principal bookId).safe hs
  | restoreBook principal bookId => exact (triple_restoreBook hJ principal bookId).safe hs
  | purgeBook principal bookId confirmBookId =>
    exact (triple_purgeBook hJ principal bookId confirmBookId).safe hs
  | pollOnce => exact (triple_pollOnce hJ).safe hs
  | deliver m =>
    exact Contract.Triple.safe (purgePart_runPurgeBook (m := m) hJ)
      ⟨hs, hs.1.message m henabled, trivial⟩

end AudioBook.Books
