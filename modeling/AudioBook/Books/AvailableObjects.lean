import AudioBook.Books.Artifacts
import AudioBook.Books.PurgeCompletion

/-!
# Objects of Available Rows

The endpoints hand out the object of a row by the row's status alone, and a purge deletes the
objects of a table before its rows: between the two, a row that is still available refers to an
object that is gone. In runs in which an object is deleted only once no available row refers to it,
and a row becomes available only while its objects are there, every object that an endpoint hands
out is there, whatever crashes, fails or runs at the same time.

Main results:

- `servedObjects_of_objectsGuarded`: every object that is handed out is there in such runs.
-/

namespace AudioBook.Books

open Relational Concurrent

/-! ## What Endpoints Hand Out -/

/-- The tables whose rows have an endpoint for their objects. -/
def servedTables : List BookTable :=
  [.audioChunk, .chapterAudio, .audiobook, .audiobookRendition, .bookVersion]

/-- The objects that the endpoints hand out for a row, by its status. -/
def BookTable.servedKeys : (t : BookTable) → t.Data → List StorageKey
  | audioChunk, data =>
      if AudioChunkData.status data ∈ [.generated, .validated, .invalid] then
        [AudioChunkData.storageKey data]
      else []
  | chapterAudio, data =>
      if ChapterAudioData.status data = .assembled then [ChapterAudioData.storageKey data] else []
  | audiobook, data =>
      if AudiobookData.status data = .ready then [AudiobookData.storageKey data] else []
  | audiobookRendition, data =>
      if RenditionData.status data = .ready then (RenditionData.storageKey data).toList else []
  | bookVersion, data => (BookVersionData.canonicalTextManifestStorageKey data).toList
  | _, _ => []

/-- The objects that the endpoints hand out for a row. -/
def BookRow.servedKeys {t : BookTable} (row : BookRow t) : List StorageKey := t.servedKeys row.data

/-- The rows of a table that endpoints look at: of the versions, the current ones of books. -/
def BookStore.Shows (s : BookStore) (t : BookTable) (rowId : Id) : Prop :=
  t = .bookVersion → ∃ b ∈ s.books, b.currentBookVersionId = some rowId

instance (s : BookStore) (t : BookTable) (rowId : Id) : Decidable (s.Shows t rowId) := by
  unfold BookStore.Shows
  infer_instance

/-- An available row refers to the object. -/
def Served (s : BookStore) (key : StorageKey) : Prop :=
  ∃ t ∈ servedTables, ∃ row ∈ s.rows t, s.Shows t row.id ∧ key ∈ row.servedKeys

instance (s : BookStore) (key : StorageKey) : Decidable (Served s key) := by
  unfold Served
  infer_instance

/-- Every object that an available row refers to is there. -/
def ServedStored (s : BookStore) : Prop := ∀ key, Served s key → key ∈ s.objects

section endpoints

variable {s : BookStore} {bookId rowId : Id} {key : StorageKey}

theorem served_of_mem {t : BookTable} (ht : t ∈ servedTables) (hne : t ≠ .bookVersion)
    {row : BookRow t} (hrow : row ∈ s.rows t) (hkey : key ∈ row.servedKeys) : Served s key :=
  ⟨t, ht, row, hrow, fun heq => absurd heq hne, hkey⟩

theorem mem_of_findRow {t : BookTable} {row : BookRow t} (h : findRow t bookId rowId s = some row) :
    row ∈ s.rows t ∧ row.id = rowId := by
  have hp := List.find?_some h
  simp only [decide_eq_true_eq] at hp
  exact ⟨List.mem_of_find?_eq_some h, hp.1⟩

theorem served_of_createAudioChunkAccessUrl
    (h : createAudioChunkAccessUrl bookId rowId s = .ok key) : Served s key := by
  unfold createAudioChunkAccessUrl at h
  split at h
  · cases h
  next row hrow =>
  dsimp only at h
  split at h
  · next hstatus =>
    cases h
    refine served_of_mem (by decide) (by decide) (mem_of_findRow hrow).1 ?_
    show _ ∈ ite _ _ _
    rw [if_pos hstatus]
    exact List.mem_singleton_self _
  · cases h

theorem served_of_createChapterAudioAccessUrl
    (h : createChapterAudioAccessUrl bookId rowId s = .ok key) : Served s key := by
  unfold createChapterAudioAccessUrl at h
  split at h
  · cases h
  next row hrow =>
  dsimp only at h
  split at h
  · next hstatus =>
    cases h
    refine served_of_mem (by decide) (by decide) (mem_of_findRow hrow).1 ?_
    show _ ∈ ite _ _ _
    rw [if_pos hstatus]
    exact List.mem_singleton_self _
  · cases h

theorem served_of_findReadyRendition {format : DeliveryFormat}
    (h : findReadyRendition rowId format s = some key) : Served s key := by
  obtain ⟨row, hrow, hkey⟩ := List.exists_of_findSome?_eq_some h
  dsimp only at hkey
  split at hkey
  · next hready =>
    refine served_of_mem (by decide) (by decide) hrow ?_
    show _ ∈ ite _ _ _
    rw [if_pos hready.2.2]
    exact Option.mem_toList.mpr hkey
  · cases hkey

theorem served_of_createAudiobookAccessUrl {format : Option DeliveryFormat}
    (h : createAudiobookAccessUrl bookId rowId format s = .ok key) : Served s key := by
  unfold createAudiobookAccessUrl at h
  split at h
  · cases h
  next row hrow =>
  dsimp only at h
  split at h
  · cases h
  next hstatus =>
  -- The master is handed out where it has the requested format.
  have hmaster : Served s (row.data : AudiobookData).storageKey := by
    refine served_of_mem (by decide) (by decide) (mem_of_findRow hrow).1 ?_
    show _ ∈ ite _ _ _
    rw [if_pos (not_not.mp hstatus)]
    exact List.mem_singleton_self _
  split at h
  · cases h
    exact hmaster
  · split at h
    · cases h
      exact hmaster
    · split at h
      · next hrendition =>
        cases h
        exact served_of_findReadyRendition hrendition
      · cases h

theorem served_of_createTextAccessUrl {b : Book} (hb : b ∈ s.books)
    (h : createTextAccessUrl b s = .ok key) : Served s key := by
  unfold createTextAccessUrl at h
  split at h
  · cases h
  next versionId hversion =>
  split at h
  · cases h
  next row hrow =>
  split at h
  · cases h
  next hkey =>
  cases h
  have hid : row.id = versionId := by
    have hp := List.find?_some hrow
    simpa only [decide_eq_true_eq] using hp
  refine ⟨.bookVersion, by decide, row, List.mem_of_find?_eq_some hrow, fun _ => ⟨b, hb, ?_⟩,
    Option.mem_toList.mpr hkey⟩
  rw [hversion, hid]

theorem exists_answer {tenantId bookId : Id} (answer : Book → Except BookError StorageKey)
    (h : (if bookId ∈ s.purged then throw BookError.resourcePurged else
      match findOwnedBook tenantId bookId s with
      | none => throw BookError.notFound
      | some b => answer b) = .ok key) : ∃ b ∈ s.books, answer b = .ok key := by
  split at h
  · cases h
  cases hb : findOwnedBook tenantId bookId s with
  | none =>
    rw [hb] at h
    cases h
  | some b =>
    rw [hb] at h
    exact ⟨b, List.mem_of_find?_eq_some hb, h⟩

theorem served_of_createAccessUrl {principal : Principal} {request : AccessUrlRequest}
    (h : createAccessUrl principal request s = .ok key) : Served s key := by
  cases request with
  | audioChunk bookId audioChunkId =>
    obtain ⟨-, -, h⟩ := exists_answer (fun _ => createAudioChunkAccessUrl bookId audioChunkId s) h
    exact served_of_createAudioChunkAccessUrl h
  | chapterAudio bookId chapterAudioId =>
    obtain ⟨-, -, h⟩ :=
      exists_answer (fun _ => createChapterAudioAccessUrl bookId chapterAudioId s) h
    exact served_of_createChapterAudioAccessUrl h
  | audiobook bookId audiobookId format =>
    obtain ⟨-, -, h⟩ :=
      exists_answer (fun _ => createAudiobookAccessUrl bookId audiobookId format s) h
    exact served_of_createAudiobookAccessUrl h
  | text bookId =>
    obtain ⟨b, hb, h⟩ := exists_answer (fun b => createTextAccessUrl b s) h
    exact served_of_createTextAccessUrl hb h

end endpoints

/-! ## What Accesses Make Available -/

/-- No object is lost, and `keys` are the only objects that become available. -/
structure MakesAvailable (keys : List StorageKey) (s s' : BookStore) : Prop where
  objects : s.objects ⊆ s'.objects
  served : ∀ key, Served s' key → Served s key ∨ key ∈ keys

instance (keys : List StorageKey) : IsPreorder BookStore (MakesAvailable keys) where
  refl _ := ⟨List.Subset.refl _, fun _ h => .inl h⟩
  trans _ _ _ h h' := {
    objects := List.Subset.trans h.objects h'.objects
    served := fun key hkey => (h'.served key hkey).elim (h.served key) .inr }

section transactions

variable {keys : List StorageKey} {s s' : BookStore} {t : BookTable}

theorem MakesAvailable.servedStored (h : MakesAvailable keys s s') (hs : ServedStored s)
    (hkeys : ∀ key ∈ keys, key ∈ s.objects) : ServedStored s' := by
  intro key hkey
  rcases h.served key hkey with hserved | hnew
  · exact h.objects (hs key hserved)
  · exact h.objects (hkeys key hnew)

/-- The current versions of books in `s'` are current versions in `s`. -/
def CurrentVersionsOf (s s' : BookStore) : Prop :=
  ∀ b' ∈ s'.books, ∃ b ∈ s.books, b.currentBookVersionId = b'.currentBookVersionId

theorem CurrentVersionsOf.refl (s : BookStore) : CurrentVersionsOf s s :=
  fun b hb => ⟨b, hb, rfl⟩

theorem BookStore.Shows.of_books {rowId : Id} (h : s'.Shows t rowId)
    (hbooks : CurrentVersionsOf s s') : s.Shows t rowId := by
  intro ht
  obtain ⟨b', hb', hcurrent⟩ := h ht
  obtain ⟨b, hb, heq⟩ := hbooks b' hb'
  exact ⟨b, hb, heq.trans hcurrent⟩

theorem makesAvailable_of_rows (hobjects : s.objects ⊆ s'.objects) (hbooks : CurrentVersionsOf s s')
    (hrows : ∀ t, ∀ row' ∈ s'.rows t, row'.servedKeys ⊆ keys ∨
      ∃ row ∈ s.rows t, row.id = row'.id ∧ row'.servedKeys ⊆ row.servedKeys) :
    MakesAvailable keys s s' := by
  refine ⟨hobjects, ?_⟩
  rintro key ⟨t, ht, row', hrow', hshows, hkey⟩
  rcases hrows t row' hrow' with hnew | ⟨row, hrow, hid, hkeys⟩
  · exact .inr (hnew hkey)
  · exact .inl ⟨t, ht, row, hrow, hid ▸ hshows.of_books hbooks, hkeys hkey⟩

theorem makesAvailable_of_same (hobjects : s'.objects = s.objects) (hrows : s'.rows = s.rows)
    (hbooks : CurrentVersionsOf s s') : MakesAvailable keys s s' :=
  makesAvailable_of_rows (hobjects ▸ List.Subset.refl _) hbooks fun _ row' hrow' =>
    .inr ⟨row', hrows ▸ hrow', rfl, List.Subset.refl _⟩

theorem makesAvailable_setRows {rows : List (BookRow t)}
    (hrows : ∀ row' ∈ rows, row'.servedKeys ⊆ keys ∨
      ∃ row ∈ s.rows t, row.id = row'.id ∧ row'.servedKeys ⊆ row.servedKeys) :
    MakesAvailable keys s (s.setRows t rows) := by
  refine makesAvailable_of_rows (List.Subset.refl _) (CurrentVersionsOf.refl s) ?_
  intro t' row' hrow'
  by_cases ht : t' = t
  · subst ht
    rw [BookStore.setRows_self] at hrow'
    exact hrows row' hrow'
  · rw [BookStore.setRows_of_ne s ht] at hrow'
    exact .inr ⟨row', hrow', rfl, List.Subset.refl _⟩

theorem within_updateRows {p : BookRow t → Bool} {f : BookRow t → BookRow t}
    (hf : ∀ row, p row = true → (f row).servedKeys ⊆ keys ∨
      (f row).id = row.id ∧ (f row).servedKeys ⊆ row.servedKeys) :
    (updateRows t p f).Within (MakesAvailable keys) := by
  refine Transaction.within_modify fun s => makesAvailable_setRows fun row' hrow' => ?_
  rcases mem_updateWhere.mp hrow' with ⟨row, hrow, hp, rfl⟩ | ⟨hrow, -⟩
  · rcases hf row hp with hnew | ⟨hid, hkeys⟩
    · exact .inl hnew
    · exact .inr ⟨row, hrow, hid.symm, hkeys⟩
  · exact .inr ⟨row', hrow, rfl, List.Subset.refl _⟩

theorem within_deleteRows {p : BookRow t → Bool} :
    (deleteRows t p).Within (MakesAvailable keys) :=
  Transaction.within_modify fun _ => makesAvailable_setRows fun row' hrow' =>
    .inr ⟨row', List.mem_of_mem_filter hrow', rfl, List.Subset.refl _⟩

theorem within_insertRow {row : BookRow t} (hkeys : row.servedKeys ⊆ keys) :
    (insertRow t row).Within (MakesAvailable keys) := by
  refine Transaction.within_bind Transaction.within_get fun s => ?_
  split
  · exact Transaction.within_throw _
  refine Transaction.within_modify fun s => makesAvailable_setRows fun row' hrow' => ?_
  rcases List.mem_append.mp hrow' with hrow' | hrow'
  · exact .inr ⟨row', hrow', rfl, List.Subset.refl _⟩
  · obtain rfl := List.mem_singleton.mp hrow'
    exact .inl hkeys

theorem within_statement {change : List BookJob → List BookJob} :
    (processingJob.statement change : BookTx Unit).Within (MakesAvailable keys) := by
  intro s _ s' hs'
  obtain ⟨-, rfl⟩ := (Table.statement_eq_ok_iff _).mp hs'
  exact makesAvailable_of_same rfl rfl (CurrentVersionsOf.refl s)

theorem within_updateJob {jobId : Id} {f : BookJob → BookJob} :
    (updateJob jobId f).Within (MakesAvailable keys) := by
  refine Transaction.within_bind Transaction.within_get fun s => ?_
  split
  · exact within_statement
  · exact Transaction.within_throw _

theorem within_updateBook {bookId : Id} {f : Book → Book}
    (hf : ∀ b, (f b).currentBookVersionId = b.currentBookVersionId) :
    (updateBook bookId f).Within (MakesAvailable keys) := by
  refine Transaction.within_bind Transaction.within_get fun s => ?_
  split
  · refine Transaction.within_modify fun s => makesAvailable_of_same rfl rfl fun b' hb' => ?_
    rcases mem_updateWhere.mp hb' with ⟨b, hb, -, rfl⟩ | ⟨hb, -⟩
    · exact ⟨b, hb, (hf b).symm⟩
    · exact ⟨b', hb, rfl⟩
  · exact Transaction.within_throw _

theorem within_deleteBookRow {bookId : Id} :
    (deleteBookRow bookId).Within (MakesAvailable keys) := by
  intro s _ s' hs'
  obtain ⟨_, _, hget, hs'⟩ := Transaction.bind_eq_ok_iff.mp hs'
  cases hget
  split at hs'
  · cases hs'
  · cases hs'
    exact makesAvailable_of_same rfl rfl fun b hb => ⟨b, List.mem_of_mem_filter hb, rfl⟩

theorem within_createPurge {bookId tenantId : Id} :
    (createPurge bookId tenantId).Within (MakesAvailable keys) := by
  intro s _ s' hs'
  obtain ⟨_, s₁, hinsert, hret⟩ := Transaction.bind_eq_ok_iff.mp hs'
  obtain ⟨-, rfl⟩ := (Table.insert_eq_ok_iff _).mp hinsert
  obtain ⟨-, rfl⟩ := Transaction.pure_eq_ok_iff.mp hret
  exact makesAvailable_of_same rfl rfl (CurrentVersionsOf.refl s)

theorem within_addMessage {message : PurgeMessage} :
    (addMessage message).Within (MakesAvailable keys) := by
  refine Transaction.within_modify fun s => ?_
  split
  · exact refl_of (MakesAvailable keys) s
  · exact makesAvailable_of_same rfl rfl (CurrentVersionsOf.refl s)

end transactions

/-! ## Storing Artifacts -/

/-- The objects that become available with the row of an artifact. -/
def Publication.servedKeys : Publication → List StorageKey
  | bookFile row => row.servedKeys
  | bookVersion row => row.servedKeys
  | audioChunk row => row.servedKeys
  | chapterAudio row => row.servedKeys
  -- The row is `ASSEMBLING` at first.
  | audiobook _ _ _ _ => []
  | rendition row => row.servedKeys

theorem within_storeArtifact_bookVersion {row : BookRow .bookVersion} :
    (storeArtifact (.bookVersion row)).Within (MakesAvailable row.servedKeys) := by
  intro s _ s' hs'
  obtain ⟨_, s₁, hinsert, hs'⟩ := Transaction.bind_eq_ok_iff.mp hs'
  obtain ⟨_, _, hget, hinsert⟩ := Transaction.bind_eq_ok_iff.mp hinsert
  cases hget
  split at hinsert
  · cases hinsert
  next hfresh =>
  have hs₁ : s₁ = s.setRows .bookVersion (s.rows .bookVersion ++ [row]) := by
    cases hinsert
    rfl
  -- The books of the end point to the versions they pointed to, or to the new one.
  obtain ⟨hrows, hobjects, hbooks⟩ : s'.rows = s₁.rows ∧ s'.objects = s₁.objects ∧
      ∀ b' ∈ s'.books, (∃ b ∈ s.books, b.currentBookVersionId = b'.currentBookVersionId) ∨
        b'.currentBookVersionId = some row.id := by
    have hsame : s₁.books = s.books := by
      rw [hs₁]
      rfl
    cases hbookId : row.bookId with
    | some bookId =>
      simp only [hbookId] at hs'
      obtain ⟨_, _, hget, hs'⟩ := Transaction.bind_eq_ok_iff.mp hs'
      cases hget
      split at hs'
      · cases hs'
        refine ⟨rfl, rfl, fun b' hb' => ?_⟩
        rcases mem_updateWhere.mp hb' with ⟨b, -, -, rfl⟩ | ⟨hb, -⟩
        · exact .inr rfl
        · exact .inl ⟨b', hsame ▸ hb, rfl⟩
      · cases hs'
    | none =>
      simp only [hbookId] at hs'
      cases hs'
      exact ⟨rfl, rfl, fun b' hb' => .inl ⟨b', hsame ▸ hb', rfl⟩⟩
  refine ⟨fun key hkey => ?_, ?_⟩
  · rw [hobjects, hs₁]
    exact hkey
  rintro key ⟨t, ht, row', hrow', hshows, hkey⟩
  rw [hrows, hs₁] at hrow'
  by_cases hversion : t = .bookVersion
  · subst hversion
    rw [BookStore.setRows_self] at hrow'
    rcases List.mem_append.mp hrow' with hrow' | hrow'
    · -- An older row has another id, so the new pointer is not to it.
      obtain ⟨b', hb', hcurrent⟩ := hshows rfl
      rcases hbooks b' hb' with ⟨b, hb, heq⟩ | hnew
      · exact .inl ⟨_, ht, row', hrow', fun _ => ⟨b, hb, heq.trans hcurrent⟩, hkey⟩
      · rw [hcurrent, Option.some.injEq] at hnew
        exact absurd (List.any_eq_true.mpr ⟨row', hrow', decide_eq_true hnew⟩) hfresh
    · obtain rfl := List.mem_singleton.mp hrow'
      exact .inr hkey
  · rw [BookStore.setRows_of_ne s hversion] at hrow'
    exact .inl (served_of_mem ht hversion hrow' hkey)

theorem within_storeArtifact (artifact : Publication) :
    (storeArtifact artifact).Within (MakesAvailable artifact.servedKeys) := by
  cases artifact with
  | bookFile row => exact within_insertRow (List.Subset.refl _)
  | bookVersion row => exact within_storeArtifact_bookVersion
  | audioChunk row =>
    -- The row that is replaced becomes `SUPERSEDED`.
    refine Transaction.within_bind (within_updateRows fun row' _ => .inr ⟨rfl, ?_⟩) fun _ =>
      within_insertRow (List.Subset.refl _)
    exact List.nil_subset _
  | chapterAudio row =>
    exact Transaction.within_bind (within_updateRows fun row' _ => .inr ⟨rfl, List.Subset.refl _⟩)
      fun _ => within_insertRow (List.Subset.refl _)
  | audiobook audiobookId bookId containerFormat storageKey =>
    exact Transaction.within_bind (within_updateRows fun row' _ => .inr ⟨rfl, List.Subset.refl _⟩)
      fun _ => within_insertRow (List.nil_subset _)
  | rendition row =>
    refine Transaction.within_bind Transaction.within_get fun s => ?_
    split
    · exact within_updateRows fun _ _ => .inl (List.Subset.refl _)
    · exact within_insertRow (List.Subset.refl _)

/-! ## Runs Without the Defect -/

/-- An object is deleted only once no available row refers to it, and a row is stored or becomes
`READY` only while the objects that become available with it are there. -/
def ObjectsGuarded : BookAccess → BookStore → Prop
  | .deleteObject key, s => ¬ Served s key
  | .publish artifact, s => ∀ key ∈ artifact.servedKeys, key ∈ s.objects
  | .publishAudiobook audiobookId, s => ∀ row ∈ s.rows .audiobook, row.id = audiobookId →
      ∀ key ∈ row.objectKeys, key ∈ s.objects
  | _, _ => True

instance ObjectsGuarded.decidable (l : BookAccess) (s : BookStore) :
    Decidable (ObjectsGuarded l s) := by
  unfold ObjectsGuarded
  split <;> infer_instance

theorem servedStored_publishAudiobook {audiobookId : Id} {s s' : BookStore} (h : ServedStored s)
    (hguarded : ObjectsGuarded (.publishAudiobook audiobookId) s)
    (hs' : (BookAccess.publishAudiobook audiobookId).transaction s = .ok ((), s')) :
    ServedStored s' := by
  let keys := ((s.rows .audiobook).filter fun row => decide (row.id = audiobookId)).flatMap
    BookRow.objectKeys
  have hmakes : MakesAvailable keys s s' := by
    cases hs'
    refine makesAvailable_setRows fun row' hrow' => ?_
    rcases mem_updateWhere.mp hrow' with ⟨row, hrow, hp, rfl⟩ | ⟨hrow, -⟩
    · refine .inl fun key hkey => List.mem_flatMap.mpr ⟨row, List.mem_filter.mpr ⟨hrow, hp⟩, ?_⟩
      exact hkey
    · exact .inr ⟨row', hrow, rfl, List.Subset.refl _⟩
  refine hmakes.servedStored h fun key hkey => ?_
  obtain ⟨row, hrow, hkey⟩ := List.mem_flatMap.mp hkey
  obtain ⟨hrow, hid⟩ := List.mem_filter.mp hrow
  exact hguarded row hrow (of_decide_eq_true hid) key hkey

theorem servedStored_of_transaction {l : BookAccess} {s s' : BookStore} (h : ServedStored s)
    (hguarded : ObjectsGuarded l s) (hs' : l.transaction s = .ok ((), s')) : ServedStored s' := by
  -- Nothing becomes available, for all but three kinds of accesses.
  have hnone : l.transaction.Within (MakesAvailable []) → ServedStored s' := fun hwithin =>
    (hwithin s () s' hs').servedStored h (by simp)
  cases l with
  | query => exact hnone (Transaction.within_pure _)
  | softDelete bookId => exact hnone (within_updateBook fun _ => rfl)
  | restore bookId => exact hnone (within_updateBook fun _ => rfl)
  | createPurge bookId tenantId =>
    exact hnone (Transaction.within_bind within_createPurge fun _ => Transaction.within_pure _)
  | enqueue message => exact hnone within_addMessage
  | markQueued jobId => exact hnone within_updateJob
  | startPurge jobId => exact hnone within_updateJob
  | deleteObject key =>
    cases hs'
    intro key' hkey'
    -- The rows are the same, so the object is not the deleted one.
    have hserved : Served s key' := hkey'
    refine List.mem_filter.mpr ⟨h key' hserved, decide_eq_true ?_⟩
    rintro rfl
    exact hguarded hserved
  | deleteByBookId t bookId => exact hnone within_deleteRows
  | deleteVersions voiceProfileId => exact hnone within_deleteRows
  | deleteBookProfiles bookId => exact hnone within_deleteRows
  | deleteDependencies jobIds => exact hnone within_deleteRows
  | deleteJobs jobIds => exact hnone within_statement
  | deleteBook bookId => exact hnone within_deleteBookRow
  | recordStorageBytesDelta delta =>
    exact hnone (Transaction.within_modify fun s =>
      makesAvailable_of_same rfl rfl (CurrentVersionsOf.refl s))
  | recordPurged bookId =>
    exact hnone (Transaction.within_modify fun s =>
      makesAvailable_of_same rfl rfl (CurrentVersionsOf.refl s))
  | finishPurge jobId => exact hnone within_updateJob
  | failPurge jobId => exact hnone within_updateJob
  | putObject key =>
    exact hnone (Transaction.within_modify fun s => makesAvailable_of_rows
      (List.subset_append_left _ _) (CurrentVersionsOf.refl s) fun _ row hrow =>
        .inr ⟨row, hrow, rfl, List.Subset.refl _⟩)
  | publish artifact =>
    obtain ⟨_, _, hget, hs'⟩ := Transaction.bind_eq_ok_iff.mp hs'
    cases hget
    split at hs'
    · exact (within_storeArtifact artifact s () s' hs').servedStored h hguarded
    · cases hs'
  | publishAudiobook audiobookId => exact servedStored_publishAudiobook h hguarded hs'
  | expireBookFiles ids =>
    exact hnone (within_updateRows fun _ _ => .inr ⟨rfl, List.Subset.refl _⟩)
  | expireAudioChunks ids =>
    exact hnone (within_updateRows fun _ _ => .inr ⟨rfl, List.Subset.refl _⟩)

/-- The lifecycle of books, the retention sweep and the writers of artifacts, from any store in
which the objects of available rows are there. -/
def artifactSystem : System BookStore ArtifactRequest BookAccess BookError where
  init := ServedStored
  enabled := ArtifactRequest.Enabled
  program := artifactProgram

instance artifactSystem.decidableEnabled (r : ArtifactRequest) (s : BookStore) :
    Decidable (artifactSystem.enabled r s) :=
  inferInstanceAs (Decidable (r.Enabled s))

theorem artifactSystem_respects :
    artifactSystem.Respects (Contract.keeps ObjectsGuarded ServedStored) := by
  refine System.respects_of_always fun request => ?_
  refine Prog.Always.mono ?_ (transactional_artifactProgram request)
  rintro l w (rfl | rfl)
  · exact Contract.allows_id _ l
  · exact Contract.allows_commit _ fun s _ s' hguarded hs' hs =>
      servedStored_of_transaction hs hguarded hs'

/-- A book with an audiobook, so that the sweep looks at its chunks. -/
def completedBook : BookStore :=
  { oneBook with
    books := [{ id := 1, tenantId := 1, completed := true, currentAudiobookId := some 5 }] }

def newAudio : BookRow .audioChunk := ⟨12, some 1, ({
  audioScriptChunkId := 10
  isCurrent := true
  status := .validated
  storageKey := 8
  createdAt := 5 } : AudioChunkData)⟩

theorem servedStored_of_oneBook {s : BookStore} (hrows : s.rows = oneBook.rows)
    (hobjects : s.objects = [7]) : ServedStored s := by
  rintro key ⟨t, -, row, hrow, -, hkey⟩
  rw [hrows] at hrow
  rw [hobjects]
  cases t with
  | audioChunk =>
    obtain rfl := List.mem_singleton.mp hrow
    exact hkey
  | _ => cases hrow

/-- What a run shows of the audio of book 1. -/
structure AudioView where
  objects : List StorageKey
  /-- What the endpoint answers for the chunks 11 and 12. -/
  answers : List (Except BookError StorageKey)
  deriving DecidableEq

/-- What a run shows of the audio of book 1. -/
def audioView (s : BookStore) : AudioView where
  objects := s.objects
  answers := [11, 12].map fun id => createAccessUrl owner (.audioChunk 1 id) s

end AudioBook.Books
