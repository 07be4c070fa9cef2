import AudioBook.Artifacts.Versions
import AudioBook.Concurrent.Uniform

/-!
# Stored Bytes and Their Rows

The object at the key of a committed row should be the one that the row describes. A worker writes
the object before the row, under a key that another run may have chosen as well: the version is read
long before, and nothing reserves it.

- `Matching`: every row describes the object at its key.
- `Unraced`: no version is taken between the steps of a worker.
- `storeArtifact_spec`: what the transaction that commits a row does to the rows.
- `matching_of_unraced`: rows match their objects in every run of unraced accesses.
-/

namespace AudioBook.Artifacts

open Relational Concurrent

/-! ## Matching Rows -/

/-- The object at the key of every row has the content hash of the row. -/
def Matching (s : ArtifactStore) : Prop :=
  ∀ row ∈ s.rows, s.objects row.storageKey = some row.contentHash

instance (s : ArtifactStore) : Decidable (Matching s) :=
  inferInstanceAs (Decidable (∀ row ∈ s.rows, _))

/-- A row of a version is there. -/
def Taken (kind : ArtifactKind) (ownerId : Id) (version : ℕ) (s : ArtifactStore) : Prop :=
  ∃ row ∈ s.rows, row.IsOf kind ownerId ∧ row.version = version

instance (kind : ArtifactKind) (ownerId : Id) (version : ℕ) (s : ArtifactStore) :
    Decidable (Taken kind ownerId version s) :=
  inferInstanceAs (Decidable (∃ row ∈ s.rows, _))

/-- What the worker found and made is still so: an object is put while the version that the worker
read is the latest one, and a row is committed while its object is in its place, unless its version
is taken. -/
def Unraced : ArtifactAccess → ArtifactStore → Prop
  | .put key _, s => ∀ row ∈ s.rows, row.IsOf key.kind key.ownerId → row.version < key.version
  | .commit _ row, s =>
      Taken row.kind row.ownerId row.version s ∨ s.objects row.storageKey = some row.contentHash
  | _, _ => True

instance : (a : ArtifactAccess) → (s : ArtifactStore) → Decidable (Unraced a s)
  | .put _ _, _ => inferInstanceAs (Decidable (∀ _ ∈ _, _))
  | .commit _ _, _ => inferInstanceAs (Decidable (_ ∨ _))
  | .query, _ | .finishJob _, _ | .failAudiobook _, _ => isTrue trivial

/-! ## Transactions -/

/-- The row is of the same version and describes the same object. -/
structure SameObject (row row' : ArtifactRow) : Prop where
  kind : row'.kind = row.kind
  ownerId : row'.ownerId = row.ownerId
  version : row'.version = row.version
  storageKey : row'.storageKey = row.storageKey
  contentHash : row'.contentHash = row.contentHash
  audio : row.kind = .audioChunk → row'.isCurrent = row.isCurrent

theorem SameObject.refl (row : ArtifactRow) : SameObject row row :=
  ⟨rfl, rfl, rfl, rfl, rfl, fun _ => rfl⟩

/-- The rows after a transaction that commits a row: the ones before, and the new one if no row was
of its version. -/
structure Commits (row : ArtifactRow) (s s' : ArtifactStore) : Prop where
  objects : s'.objects = s.objects
  rows : ∀ row' ∈ s'.rows, (∃ old ∈ s.rows, SameObject old row') ∨
    SameObject row row' ∧ ¬ Taken row.kind row.ownerId row.version s

section transactions

variable {row : ArtifactRow} {s s' : ArtifactStore} {u : Unit}

theorem version_ne_of_accepts {rows : List ArtifactRow} (h : artifact.Accepts (rows ++ [row]))
    (hkind : row.kind ≠ .audioChunk) {other : ArtifactRow} (hother : other ∈ rows)
    (hof : other.IsOf row.kind row.ownerId) : other.version ≠ row.version := by
  intro hversion
  have hunique : UniqueWhere versionKey (rows ++ [row]) :=
    (Constraint.holds_uniqueWhere _ _).mp (h _ (by simp [artifact]))
  have hkey : versionKey row = some (row.kind, row.ownerId, row.version) := if_neg hkind
  refine (uniqueWhere_concat_iff.mp hunique).2 _ hkey other hother ?_
  rw [versionKey, hof.1, if_neg hkind, hof.2, hversion]

theorem storeMaster_spec (h : storeMaster row s = .ok (u, s')) (hkind : row.kind ≠ .audioChunk) :
    Commits row s s' := by
  obtain ⟨_, s₁, hretire, hinsert⟩ := Transaction.bind_eq_ok_iff.mp h
  obtain ⟨-, rfl⟩ := artifact.update_eq_ok_iff.mp hretire
  obtain ⟨haccepts, rfl⟩ := artifact.insert_eq_ok_iff.mp hinsert
  have hold : ∀ row' ∈ updateWhere (fun other => decide (other.IsOf row.kind row.ownerId ∧
      other.isCurrent)) retire s.rows,
      ∃ old ∈ s.rows, SameObject old row' := by
    intro row' hrow'
    rcases mem_updateWhere.mp hrow' with ⟨old, hold, hof, rfl⟩ | ⟨hrow', -⟩
    · have hof := (of_decide_eq_true hof).1
      exact ⟨old, hold, rfl, rfl, rfl, rfl, rfl, fun haudio => absurd (hof.1.symm.trans haudio) hkind⟩
    · exact ⟨row', hrow', .refl row'⟩
  refine ⟨rfl, fun row' hrow' => ?_⟩
  rcases List.mem_append.mp hrow' with hrow' | hnew
  · exact .inl (hold row' hrow')
  · rw [List.mem_singleton.mp hnew]
    refine .inr ⟨.refl row, ?_⟩
    rintro ⟨other, hother, hof, hversion⟩
    -- The retired rows keep their versions.
    obtain ⟨kept, hkept, hsame⟩ := exists_mem_updateWhere (f := retire)
      (fun row => (row.kind, row.ownerId, row.version)) (fun _ => rfl) hother
    obtain ⟨hkind', hrest⟩ := Prod.mk.inj hsame
    obtain ⟨howner', hversion'⟩ := Prod.mk.inj hrest
    exact version_ne_of_accepts haccepts hkind hkept ⟨hkind'.trans hof.1, howner'.trans hof.2⟩
      (hversion'.trans hversion)

theorem storeBookVersion_spec (h : storeBookVersion row s = .ok (u, s'))
    (hkind : row.kind = .bookVersion) : Commits row s s' := by
  have haudio : row.kind ≠ .audioChunk := by simp [hkind]
  obtain ⟨t, s₀, hget, h⟩ := Transaction.bind_eq_ok_iff.mp h
  cases hget
  split at h
  · obtain ⟨-, rfl⟩ := Transaction.pure_eq_ok_iff.mp h
    exact ⟨rfl, fun row' hrow' => .inl ⟨row', hrow', .refl row'⟩⟩
  obtain ⟨_, s₁, hinsert, hretire⟩ := Transaction.bind_eq_ok_iff.mp h
  obtain ⟨haccepts, rfl⟩ := artifact.insert_eq_ok_iff.mp hinsert
  obtain ⟨-, rfl⟩ := artifact.update_eq_ok_iff.mp hretire
  have hfree : ¬ Taken row.kind row.ownerId row.version s := by
    rintro ⟨other, hother, hof, hversion⟩
    exact version_ne_of_accepts haccepts haudio hother hof hversion
  refine ⟨rfl, fun row' hrow' => ?_⟩
  rcases mem_updateWhere.mp hrow' with ⟨old, hold, hof, rfl⟩ | ⟨hrow', -⟩
  · have hof := (of_decide_eq_true hof).1
    have hsame : SameObject old (supersede row.id old) :=
      ⟨rfl, rfl, rfl, rfl, rfl, fun hchunk => by simp [hof.1] at hchunk⟩
    rcases List.mem_append.mp hold with hold | hnew
    · exact .inl ⟨old, hold, hsame⟩
    · rw [List.mem_singleton.mp hnew] at hsame ⊢
      exact .inr ⟨hsame, hfree⟩
  · rcases List.mem_append.mp hrow' with hold | hnew
    · exact .inl ⟨row', hold, .refl row'⟩
    · rw [List.mem_singleton.mp hnew]
      exact .inr ⟨.refl row, hfree⟩

theorem insertAudioChunk_spec (h : insertAudioChunk row s = .ok (u, s'))
    (hkind : row.kind = .audioChunk)
    (hcurrent : ∀ other ∈ s.rows, other.kind = .audioChunk → other.isCurrent) :
    Commits row s s' := by
  obtain ⟨t, s₀, hget, h⟩ := Transaction.bind_eq_ok_iff.mp h
  cases hget
  dsimp only at h
  generalize hfound : s.rows.find? _ = found at h
  cases found with
  | some old =>
    -- The old row is pointed at an id that the insertion needs to be new.
    obtain ⟨_, s₁, hretire, hinsert⟩ := Transaction.bind_eq_ok_iff.mp h
    obtain ⟨hretired, rfl⟩ := artifact.update_eq_ok_iff.mp hretire
    obtain ⟨haccepts, -⟩ := artifact.insert_eq_ok_iff.mp hinsert
    have hrefs := (Constraint.holds_selfReference _ _ _).mp
      (hretired (.selfReference ArtifactRow.id ArtifactRow.supersededById) (by simp [artifact]))
    have hids := (Constraint.holds_uniqueWhere _ _).mp
      (haccepts (.uniqueWhere fun row => some row.id) (by simp [artifact]))
    have hthere : row.id ∈ s.rows.map ArtifactRow.id := by
      by_contra hnew
      refine absurd hrefs (not_selfReferencing_updateWhere (fun _ => rfl)
        (List.mem_of_find?_eq_some hfound) (decide_eq_true rfl) ?_ hnew)
      rfl
    obtain ⟨other, hother, hid⟩ := List.mem_map.mp hthere
    obtain ⟨kept, hkept, hsame⟩ := exists_mem_updateWhere (f := supersede row.id)
      ArtifactRow.id (fun _ => rfl) hother
    exact absurd (congrArg some (hsame.trans hid)) ((uniqueWhere_concat_iff.mp hids).2 _ rfl kept hkept)
  | none =>
    obtain ⟨-, rfl⟩ := artifact.insert_eq_ok_iff.mp h
    refine ⟨rfl, fun row' hrow' => ?_⟩
    rcases List.mem_append.mp hrow' with hold | hnew
    · exact .inl ⟨row', hold, .refl row'⟩
    · rw [List.mem_singleton.mp hnew]
      refine .inr ⟨.refl row, ?_⟩
      rintro ⟨other, hother, hof, -⟩
      have hother' := List.find?_eq_none.mp hfound other hother
      rw [decide_eq_true_eq] at hother'
      exact hother' ⟨hkind ▸ hof, hcurrent other hother (hof.1.trans hkind)⟩

theorem storeArtifact_spec (h : storeArtifact row s = .ok (u, s'))
    (hcurrent : ∀ other ∈ s.rows, other.kind = .audioChunk → other.isCurrent) :
    Commits row s s' := by
  cases hkind : row.kind with
  | bookVersion =>
    rw [storeArtifact, hkind] at h
    exact storeBookVersion_spec h hkind
  | audioChunk =>
    rw [storeArtifact, hkind] at h
    exact insertAudioChunk_spec h hkind hcurrent
  | chapterAudio =>
    rw [storeArtifact, hkind] at h
    exact storeMaster_spec h (by simp [hkind])
  | audiobook =>
    rw [storeArtifact, hkind] at h
    exact storeMaster_spec h (by simp [hkind])

end transactions

/-! ## Accesses -/

/-- The rows, the keys and the objects agree. -/
structure Consistent (s : ArtifactStore) : Prop where
  keys : ∀ row ∈ s.rows, row.storageKey = ⟨row.kind, row.ownerId, row.version⟩
  current : ∀ row ∈ s.rows, row.kind = .audioChunk → row.isCurrent
  matching : Matching s

/-- The access runs the transaction of its label, or leaves the store alone; a row has the key of its
version and is current. -/
def Keyed (a : ArtifactAccess) (w : ArtifactStore → ArtifactStore) : Prop :=
  (w = id ∨ w = Prog.commit a.transaction) ∧ ∀ jobId row, a = .commit jobId row →
    row.storageKey = ⟨row.kind, row.ownerId, row.version⟩ ∧ row.isCurrent

theorem always_run {a : ArtifactAccess} (h : ∀ jobId row, a = .commit jobId row →
    row.storageKey = ⟨row.kind, row.ownerId, row.version⟩ ∧ row.isCurrent) :
    (run a).Always Keyed :=
  Prog.always_atomically ⟨.inr rfl, h⟩

theorem always_query {α : Type} (f : ArtifactStore → α) : (query f).Always Keyed :=
  Prog.always_read ⟨.inl rfl, fun _ _ h => by cases h⟩

theorem always_storeNextVersion (kind : ArtifactKind) (d : Delivery) :
    (storeNextVersion kind d).Always Keyed := by
  refine Prog.always_tryCatch (Prog.always_bind (always_query _) fun version => ?_) fun err => ?_
  · refine Prog.always_bind (always_run fun _ _ h => by cases h) fun _ => always_run ?_
    rintro jobId row h
    cases h
    exact ⟨rfl, rfl⟩
  · dsimp only
    split
    · exact Prog.always_bind (always_run fun _ _ h => by cases h) fun _ => trivial
    · trivial

theorem always_process (kind : ArtifactKind) (isThere : ArtifactRow → Bool) (d : Delivery) :
    (process kind isThere d).Always Keyed := by
  refine Prog.always_bind (always_query _) fun finished => ?_
  split
  · trivial
  refine Prog.always_bind (always_query _) fun there => ?_
  split
  · exact always_run fun _ _ h => by cases h
  · exact always_storeNextVersion kind d

theorem always_artifactProgram (i : ArtifactRequest) : (artifactSystem.program i).Always Keyed := by
  cases i with
  | parseBook d => exact always_process _ _ d
  | generateTtsChunk d => exact always_process _ _ d
  | assembleChapter d => exact always_process _ _ d
  | assembleAudiobook d => exact always_process _ _ d
  | failAudiobook id => exact always_run fun _ _ h => by cases h

section steps

variable {s : ArtifactStore}

theorem Consistent.put (h : Consistent s) {key : VersionKey} {content : Hash}
    (hfree : ∀ row ∈ s.rows, row.IsOf key.kind key.ownerId → row.version < key.version) :
    Consistent { s with objects := Function.update s.objects key (some content) } where
  keys := h.keys
  current := h.current
  matching row hrow := by
    have hne : row.storageKey ≠ key := by
      intro heq
      have hkey : key = ⟨row.kind, row.ownerId, row.version⟩ := heq ▸ h.keys row hrow
      have hlt := hfree row hrow (by rw [hkey]; exact ⟨rfl, rfl⟩)
      rw [hkey] at hlt
      exact Nat.lt_irrefl _ hlt
    show Function.update s.objects key (some content) row.storageKey = _
    rw [Function.update_of_ne hne]
    exact h.matching row hrow

theorem Consistent.commit (h : Consistent s) {row : ArtifactRow} {s' : ArtifactStore}
    (hkey : row.storageKey = ⟨row.kind, row.ownerId, row.version⟩) (hcurrent : row.isCurrent)
    (hobject : Taken row.kind row.ownerId row.version s ∨
      s.objects row.storageKey = some row.contentHash) (hcommits : Commits row s s') :
    Consistent s' := by
  have hsource : ∀ row' ∈ s'.rows, ∃ source, SameObject source row' ∧
      source.storageKey = ⟨source.kind, source.ownerId, source.version⟩ ∧
      (source.kind = .audioChunk → source.isCurrent) ∧
      s.objects source.storageKey = some source.contentHash := by
    intro row' hrow'
    rcases hcommits.rows row' hrow' with ⟨old, hold, hsame⟩ | ⟨hsame, hfree⟩
    · exact ⟨old, hsame, h.keys old hold, h.current old hold, h.matching old hold⟩
    · exact ⟨row, hsame, hkey, fun _ => hcurrent, hobject.resolve_left hfree⟩
  refine ⟨fun row' hrow' => ?_, fun row' hrow' haudio => ?_, fun row' hrow' => ?_⟩
  · obtain ⟨source, hsame, hkeys, -, -⟩ := hsource row' hrow'
    rw [hsame.storageKey, hsame.kind, hsame.ownerId, hsame.version]
    exact hkeys
  · obtain ⟨source, hsame, -, hcurrent, -⟩ := hsource row' hrow'
    have haudio : source.kind = .audioChunk := hsame.kind.symm.trans haudio
    rw [hsame.audio haudio]
    exact hcurrent haudio
  · obtain ⟨source, hsame, -, -, hmatches⟩ := hsource row' hrow'
    rw [hcommits.objects, hsame.storageKey, hsame.contentHash]
    exact hmatches

theorem Consistent.markFailed (h : Consistent s) (p : ArtifactRow → Bool) :
    Consistent { s with rows := updateWhere p Artifacts.markFailed s.rows } where
  keys row hrow := by
    rcases mem_updateWhere.mp hrow with ⟨old, hold, -, rfl⟩ | ⟨hrow, -⟩
    · exact h.keys old hold
    · exact h.keys row hrow
  current row hrow := by
    rcases mem_updateWhere.mp hrow with ⟨old, hold, -, rfl⟩ | ⟨hrow, -⟩
    · exact h.current old hold
    · exact h.current row hrow
  matching row hrow := by
    rcases mem_updateWhere.mp hrow with ⟨old, hold, -, rfl⟩ | ⟨hrow, -⟩
    · exact h.matching old hold
    · exact h.matching row hrow

theorem consistent_commit {a : ArtifactAccess} (h : Consistent s) (hunraced : Unraced a s)
    (hkeyed : ∀ jobId row, a = .commit jobId row →
      row.storageKey = ⟨row.kind, row.ownerId, row.version⟩ ∧ row.isCurrent) :
    Consistent (Prog.commit a.transaction s) := by
  cases a with
  | query => exact h
  | put key content => exact h.put hunraced
  | finishJob jobId => exact ⟨h.keys, h.current, h.matching⟩
  | commit jobId row =>
    obtain ⟨hkey, hcurrent⟩ := hkeyed jobId row rfl
    cases ht : (ArtifactAccess.commit jobId row).transaction s with
    | error e =>
      rw [Prog.commit_of_error ht]
      exact h
    | ok p =>
      rw [Prog.commit_of_ok ht]
      obtain ⟨_, s'⟩ := p
      obtain ⟨_, s₁, hstore, hfinish⟩ := Transaction.bind_eq_ok_iff.mp ht
      cases hfinish
      have hstored := h.commit hkey hcurrent hunraced (storeArtifact_spec hstore h.current)
      exact ⟨hstored.keys, hstored.current, hstored.matching⟩
  | failAudiobook id =>
    cases ht : (ArtifactAccess.failAudiobook id).transaction s with
    | error e =>
      rw [Prog.commit_of_error ht]
      exact h
    | ok p =>
      rw [Prog.commit_of_ok ht]
      obtain ⟨-, hs'⟩ := artifact.update_eq_ok_iff.mp ht
      rw [hs']
      exact h.markFailed _

end steps

/-! ## Runs -/

/-- In every run of unraced accesses, the object at the key of every row is the row's. -/
theorem matching_of_unraced {c : Config ArtifactStore ArtifactAccess Fault}
    (hc : artifactSystem.Reachable Unraced c) : Matching c.store := by
  refine Consistent.matching (hc.invariant_of_always always_artifactProgram (fun s hs => ?_) ?_)
  · have hnone : ∀ row, row ∉ s.rows := fun row hrow => List.not_mem_nil (hs ▸ hrow)
    exact ⟨fun row hrow => absurd hrow (hnone row), fun row hrow => absurd hrow (hnone row),
      fun row hrow => absurd hrow (hnone row)⟩
  · rintro a w s ⟨rfl | rfl, hkeyed⟩ hunraced h
    · exact h
    · exact consistent_commit h hunraced hkeyed

/-! ## Two Deliveries of One Job -/

/-- A delivery of the synthesis of a script chunk, in which the model makes the given audio. -/
def synthesis (content : Hash) (artifactId : Id) : Delivery where
  jobId := 1
  ownerId := 3
  sourceHash := 5
  content := content
  artifactId := artifactId

/-- The content hashes of the rows, each with the object at the key of the row. -/
def storedHashes (s : ArtifactStore) : List (Hash × Option Hash) :=
  s.rows.map fun row => (row.contentHash, s.objects row.storageKey)

/-- A job that is delivered again after it succeeded is not run again. -/
theorem matching_redelivered : ∃ c, artifactSystem.Reachable Unraced c ∧
    storedHashes c.store = [(7, some 7)] ∧ Matching c.store := by
  have hplay : (artifactSystem.playAll Unraced ⟨{}, []⟩
      ([.spawn (.generateTtsChunk (synthesis 7 10))] ++ List.replicate 5 (.proceed 0) ++
        [.spawn (.generateTtsChunk (synthesis 8 11)), .proceed 1])).map
      (fun c => storedHashes c.store) = some [(7, some 7)] := by decide +kernel
  obtain ⟨c, hrun, hhashes⟩ := System.exists_run_of_playAll (f := storedHashes) hplay
  have hreach : artifactSystem.Reachable Unraced c := ⟨{}, rfl, hrun⟩
  exact ⟨c, hreach, hhashes, matching_of_unraced hreach⟩

/-- A stalled job is delivered again: both runs read that there is no version, and the one that loses
puts its object before the other one commits its row. -/
theorem not_forall_matching :
    ¬ ∀ c, artifactSystem.Reachable anyAccess c → Matching c.store := by
  intro h
  have hplay : (artifactSystem.playAll anyAccess ⟨{}, []⟩
      ([.spawn (.generateTtsChunk (synthesis 7 10)), .spawn (.generateTtsChunk (synthesis 8 11))] ++
        List.replicate 4 (.proceed 0) ++ List.replicate 4 (.proceed 1) ++ [.proceed 0])).map
      (fun c => decide (Matching c.store)) = some false := by decide +kernel
  obtain ⟨c, hrun, hmismatch⟩ :=
    System.exists_run_of_playAll (f := fun s => decide (Matching s)) hplay
  exact of_decide_eq_false hmismatch (h c ⟨{}, rfl, hrun⟩)

end AudioBook.Artifacts
