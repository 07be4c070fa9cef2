import AudioBook.Assembly.Effects
import AudioBook.Assembly.Steps
import AudioBook.Schema.Constraints

/-!
# The Published Version

Whether the audiobook that a book points at is ever replaced by an older one. The publication
gate checks that every format is ready and that the audiobook is not published yet; it does not
check that a newer audiobook of the book has been published since.

Main results:

- `publishedVersion_mono`: in every run whose accesses go forward, the published version of a
  book never decreases.
-/

namespace AudioBook

open Relational Concurrent

def publishedVersion (bookId : Id) (s : Store) : Option ℕ :=
  (((findBook bookId s).bind Book.currentAudiobookId).bind fun i => findAudiobook i s).map
    Audiobook.version

/-- An audiobook is published while no newer audiobook of its book is `READY`, and an encode
failure does not meet a `READY` audiobook that it sets to `FAILED`. -/
def Access.Forward : Access → Store → Prop
  | publish audiobookId bookId, s => ∀ a ∈ s.audiobooks, a.id = audiobookId →
      ∀ newer ∈ s.audiobooks, newer.bookId = bookId → newer.status = .ready →
        newer.version ≤ a.version
  | failEncode _ _ _ audiobookId _ _ _ failAudiobook, s => failAudiobook = true →
      ∀ a ∈ s.audiobooks, a.id = audiobookId → a.status ≠ .ready
  | _, _ => True

instance (a : Access) (s : Store) : Decidable (a.Forward s) :=
  match a with
  | .publish audiobookId bookId => inferInstanceAs (Decidable (∀ a ∈ s.audiobooks,
      a.id = audiobookId → ∀ newer ∈ s.audiobooks, newer.bookId = bookId → newer.status = .ready →
        newer.version ≤ a.version))
  | .failEncode _ _ _ audiobookId _ _ _ failAudiobook =>
      inferInstanceAs (Decidable (failAudiobook = true → ∀ a ∈ s.audiobooks, a.id = audiobookId →
        a.status ≠ .ready))
  | .query | .requestedFormats _ | .readCancellationFlag _ | .external | .freshId | .enqueue _ | .markQueued _
  | .removeQueuedJob _ | .setCancellationFlag _ | .createJobs _ | .cancelJobs _ | .halt _ _
  | .markRunning _ _ | .markSucceeded _ _ | .markFailed _ _ _ | .persistChapterAudio _ _
  | .persistAudiobook _ _ | .updateRendition _ _ | .createRendition _ | .insertChunks _
  | .createTtsJobs _ _ | .insertAudioChunk _ => isTrue trivial

/-! ## The Invariant -/

/-- A later version of an audiobook: it is the same build, and stays `READY`. -/
def Audiobook.StaysReady (a a' : Audiobook) : Prop :=
  a.SameBuild a' ∧ (a.status = .ready → a'.status = .ready)

instance : IsPreorder Audiobook Audiobook.StaysReady where
  refl a := ⟨refl_of Audiobook.SameBuild a, id⟩
  trans _ _ _ h₁ h₂ := ⟨trans_of Audiobook.SameBuild h₁.1 h₂.1, h₂.2 ∘ h₁.2⟩

/-- What holds in every reachable store: a book points at a `READY` audiobook of its own. -/
structure PointerInvariant (s : Store) : Prop where
  audiobookIds : (s.audiobooks.map Audiobook.id).Nodup
  published : ∀ book ∈ s.books, ∀ i, book.currentAudiobookId = some i →
    ∃ a ∈ s.audiobooks, a.id = i ∧ a.bookId = book.id ∧ a.status = .ready

/-- What steps never change back: audiobooks stay, and no book moves to an older one. -/
structure PointerStep (s s' : Store) : Prop where
  audiobooks : Persist Audiobook.StaysReady s.audiobooks s'.audiobooks
  forward : ∀ bookId v, publishedVersion bookId s = some v →
    ∃ v', publishedVersion bookId s' = some v' ∧ v ≤ v'

instance : IsPreorder Store PointerStep where
  refl s := ⟨refl_of (Persist Audiobook.StaysReady) s.audiobooks, fun _ v h => ⟨v, h, le_rfl⟩⟩
  trans _ _ _ h₁ h₂ := by
    refine ⟨trans_of (Persist Audiobook.StaysReady) h₁.audiobooks h₂.audiobooks, fun bookId v hv => ?_⟩
    obtain ⟨v', hv', hle⟩ := h₁.forward bookId v hv
    obtain ⟨v'', hv'', hle'⟩ := h₂.forward bookId v' hv'
    exact ⟨v'', hv'', hle.trans hle'⟩

theorem publishedVersion_eq_some_iff {s : Store} (hs : (s.audiobooks.map Audiobook.id).Nodup)
    {bookId : Id} {v : ℕ} :
    publishedVersion bookId s = some v ↔
      ∃ book, findBook bookId s = some book ∧ ∃ a ∈ s.audiobooks,
        book.currentAudiobookId = some a.id ∧ a.version = v := by
  have hfind : ∀ i a, findAudiobook i s = some a ↔ a ∈ s.audiobooks ∧ a.id = i := fun i a =>
    find?_eq_some_iff_of_nodup hs
  simp only [publishedVersion, Option.map_eq_some_iff, Option.bind_eq_some_iff, hfind]
  constructor
  · rintro ⟨a, ⟨_, ⟨book, hbook, hpointer⟩, ha, rfl⟩, hv⟩
    exact ⟨book, hbook, a, ha, hpointer, hv⟩
  · rintro ⟨book, hbook, a, ha, hpointer, hv⟩
    exact ⟨a, ⟨a.id, ⟨book, hbook, hpointer⟩, ha, rfl⟩, hv⟩

theorem PointerInvariant.step_of_books {s s' : Store} (hs : PointerInvariant s)
    (hbooks : s'.books = s.books)
    (hstays : Persist Audiobook.StaysReady s.audiobooks s'.audiobooks)
    (hids : (s'.audiobooks.map Audiobook.id).Nodup) : PointerInvariant s' ∧ PointerStep s s' := by
  refine ⟨⟨hids, fun book hbook i hi => ?_⟩, hstays, fun bookId v hv => ?_⟩
  · rw [hbooks] at hbook
    obtain ⟨a, ha, hid, hbookId, hready⟩ := hs.published book hbook i hi
    obtain ⟨a', ha', hsame, hstatus⟩ := hstays a ha
    refine ⟨a', ha', ?_, ?_, hstatus hready⟩
    · rw [hsame]
      exact hid
    · rw [hsame]
      exact hbookId
  · obtain ⟨book, hbook, a, ha, hpointer, rfl⟩ :=
      (publishedVersion_eq_some_iff hs.audiobookIds).mp hv
    obtain ⟨a', ha', hsame, -⟩ := hstays a ha
    have hid : a'.id = a.id := by rw [hsame]
    have hversion : a'.version = a.version := by rw [hsame]
    refine ⟨a.version, (publishedVersion_eq_some_iff hids).mpr ⟨book, ?_, a', ha', ?_, hversion⟩,
      le_rfl⟩
    · rw [findBook, hbooks]
      exact hbook
    · rw [hid]
      exact hpointer

/-- Accesses that go forward, and steps that keep the invariant. -/
def pointerContract : Contract Store Access :=
  .ofInvariant Access.Forward PointerInvariant PointerStep

/-! ## Steps -/

theorem stays_withStatus {audiobookId : Id} {status : AudiobookStatus} {rows : List Audiobook}
    (h : ∀ a ∈ rows, a.id = audiobookId → a.status = .ready → status = .ready) :
    Persist Audiobook.StaysReady rows (withStatus audiobookId status rows) :=
  Persist.updateWhere fun a ha hid => ⟨rfl, h a ha (of_decide_eq_true hid)⟩

theorem pointer_unpublishing (a : Access) (w : Store → Store) (h : a.Unpublishing w) :
    pointerContract.Allows a w := by
  obtain ⟨⟨-, rfl | rfl⟩, hpublish⟩ := h
  · exact Contract.allows_id _ a
  refine Contract.allows_commit _ fun s u s' hadm htx hs => ?_
  by_cases hproduct : a.WritesProduct
  · cases a with
    | persistAudiobook jobId audiobook =>
      obtain ⟨-, hacc, jobs, rfl⟩ := persistAudiobook_eq_ok htx
      refine hs.step_of_books rfl ?_ (Db.audiobook_accepts_iff.mp hacc).id
      refine trans_of (Persist Audiobook.StaysReady) ?_ (Persist.append _ _ [audiobook])
      exact Persist.updateWhere fun a _ _ => ⟨rfl, id⟩
    | updateRendition renditionId rendition =>
      obtain ⟨-, rfl⟩ := (Table.update_eq_ok_iff (ε := Fault) _).mp htx
      exact hs.step_of_books rfl (refl_of (Persist _) _) hs.audiobookIds
    | createRendition rendition =>
      obtain ⟨-, rfl⟩ := (Table.insert_eq_ok_iff (ε := Fault) _).mp htx
      exact hs.step_of_books rfl (refl_of (Persist _) _) hs.audiobookIds
    | failEncode jobId seen errorCode audiobookId format existing newId failAudiobook =>
      obtain ⟨-, jobs, rfl⟩ := failEncode_eq_ok htx
      cases failAudiobook with
      | true =>
        refine hs.step_of_books rfl (stays_withStatus fun a ha hid hready => ?_)
          (nodup_map_updateWhere hs.audiobookIds fun _ => rfl)
        exact absurd hready (hadm rfl a ha hid)
      | false => exact hs.step_of_books rfl (refl_of (Persist _) _) hs.audiobookIds
    | publish audiobookId bookId => exact absurd rfl (hpublish audiobookId bookId)
    | _ => exact absurd hproduct not_false
  · obtain ⟨haudiobooks, -, hbooks⟩ := tx_products hproduct s u s' htx
    refine hs.step_of_books hbooks ?_ ?_
    · rw [haudiobooks]
      exact refl_of (Persist Audiobook.StaysReady) _
    · rw [haudiobooks]
      exact hs.audiobookIds

/-- An audiobook that was read is still there. -/
def KnownAudiobook (audiobook : Audiobook) (s : Store) : Prop :=
  ∃ a ∈ s.audiobooks, audiobook.SameBuild a

theorem stable_knownAudiobook (audiobook : Audiobook) :
    pointerContract.Stable fun s => PointerInvariant s ∧ KnownAudiobook audiobook s := by
  refine Contract.stable_of_mono fun s s' _ hstep hknown => ?_
  obtain ⟨a, ha, hsame⟩ := hknown
  obtain ⟨a', ha', hsame', -⟩ := hstep.audiobooks a ha
  exact ⟨a', ha', trans_of Audiobook.SameBuild hsame hsame'⟩

theorem evolves_publish_of_forward {audiobook : Audiobook} {s s' : Store} {u : Unit}
    (hadm : (Access.publish audiobook.id audiobook.bookId).Forward s)
    (htx : publishAudiobook audiobook.id audiobook.bookId s = .ok (u, s'))
    (hknown : KnownAudiobook audiobook s) : pointerContract.evolves s s' := by
  intro hs
  obtain rfl := publishAudiobook_eq_ok htx
  obtain ⟨a, ha, hsame⟩ := hknown
  have hid : a.id = audiobook.id := by rw [hsame]
  have hbookId : a.bookId = audiobook.bookId := by rw [hsame]
  have hids : ((withStatus audiobook.id .ready s.audiobooks).map Audiobook.id).Nodup :=
    nodup_map_updateWhere hs.audiobookIds fun _ => rfl
  have hstays : Persist Audiobook.StaysReady s.audiobooks
      (withStatus audiobook.id .ready s.audiobooks) := stays_withStatus fun _ _ _ _ => rfl
  -- The audiobook is `READY` now.
  have hpublished : { a with status := .ready } ∈ withStatus audiobook.id .ready s.audiobooks :=
    mem_updateWhere.mpr (.inl ⟨a, ha, by simpa using hid, rfl⟩)
  refine ⟨⟨hids, fun book hbook i hi => ?_⟩, hstays, fun bookId v hv => ?_⟩
  · rcases mem_updateWhere.mp hbook with ⟨book₀, hbook₀, hbookId₀, rfl⟩ | ⟨hbook, -⟩
    · have hbookId₀ : book₀.id = audiobook.bookId := of_decide_eq_true hbookId₀
      obtain rfl : audiobook.id = i := by simpa using hi
      exact ⟨_, hpublished, hid, hbookId.trans hbookId₀.symm, rfl⟩
    · obtain ⟨a₀, ha₀, hid₀, hbookId₀, hready₀⟩ := hs.published book hbook i hi
      obtain ⟨a', ha', hsame', hstatus⟩ := hstays a₀ ha₀
      refine ⟨a', ha', ?_, ?_, hstatus hready₀⟩
      · rw [hsame']
        exact hid₀
      · rw [hsame']
        exact hbookId₀
  · obtain ⟨book, hbook, a₀, ha₀, hpointer, rfl⟩ :=
      (publishedVersion_eq_some_iff hs.audiobookIds).mp hv
    have hbookId₀ : book.id = bookId := by simpa using List.find?_some hbook
    have hfound := find?_updateWhere (p := fun b : Book => decide (b.id = audiobook.bookId))
      (f := fun b => { b with currentAudiobookId := some audiobook.id }) (g := Book.id)
      (fun _ => rfl) s.books bookId
    rw [findBook] at hbook
    rw [hbook, Option.map_some] at hfound
    by_cases hp : book.id = audiobook.bookId
    · -- The book moves from a `READY` audiobook of its own, which is not newer.
      refine ⟨a.version, (publishedVersion_eq_some_iff hids).mpr
        ⟨_, hfound, _, hpublished, by simp [hp, hid], rfl⟩, ?_⟩
      obtain ⟨a₁, ha₁, hid₁, hbookId₁, hready₁⟩ :=
        hs.published book (List.mem_of_find?_eq_some hbook) a₀.id hpointer
      obtain rfl : a₁ = a₀ := List.inj_on_of_nodup_map hs.audiobookIds ha₁ ha₀ hid₁
      exact hadm a ha hid a₁ ha₁ (hbookId₁.trans hp) hready₁
    · obtain ⟨a', ha', hsame', -⟩ := hstays a₀ ha₀
      have hid' : a'.id = a₀.id := by rw [hsame']
      have hversion : a'.version = a₀.version := by rw [hsame']
      exact ⟨a₀.version, (publishedVersion_eq_some_iff hids).mpr
        ⟨_, hfound, a', ha', by simp [hp, hid', hpointer], hversion⟩, le_rfl⟩

theorem safe_maybePublishAudiobook_of_forward (audiobook : Audiobook) (s : Store)
    (hs : PointerInvariant s) (hknown : KnownAudiobook audiobook s) :
    pointerContract.Safe (maybePublishAudiobook audiobook) s := by
  have hstable := stable_knownAudiobook audiobook
  have hP : ∀ (a : Access) w, a.Plain w → pointerContract.Allows a w := fun a w h =>
    pointer_unpublishing a w (unpublishing_of_routine a w h.2)
  rw [maybePublishAudiobook]
  split
  · exact Contract.safe_pure
  refine Contract.safe_bind hstable ⟨hs, hknown⟩
    (Contract.safe_of_always (Prog.always_read (hP _ _ ⟨not_false, not_false, trivial, .inl rfl⟩)))
    fun requested s₁ hs₁ => ?_
  split
  · exact Contract.safe_pure
  refine Contract.safe_bind hstable hs₁ (Contract.safe_of_always (always_allFormatsFullyReady hP _ _ _))
    fun ready s₂ hs₂ => ?_
  split
  · exact Contract.safe_pure
  refine Contract.safe_bind hstable hs₂ (Contract.safe_of_always (always_query hP _))
    fun _ s₃ hs₃ => ?_
  refine Contract.safe_bind hstable hs₃ (Contract.safe_of_always (always_query hP _))
    fun current s₄ hs₄ => ?_
  split
  · exact Contract.safe_pure
  split
  · exact Contract.safe_pure
  refine Contract.wp_atomically (fun _ _ _ => trivial) fun s₅ _ s₆ hev₅ hadm htx => ⟨?_, trivial⟩
  exact evolves_publish_of_forward hadm htx (hstable s₄ s₅ hev₅ hs₄).2

/-! ## Runs -/

theorem pointerRules :
    AssemblyRules pointerContract PointerInvariant fun audiobook s =>
      PointerInvariant s ∧ KnownAudiobook audiobook s where
  stable := Contract.stable_invariant
  stableKnown := stable_knownAudiobook
  known hs hfound := ⟨hs, _, List.mem_of_find?_eq_some hfound, rfl⟩
  routine a w h := pointer_unpublishing a w (unpublishing_of_routine a w h)
  upsert _ _ _ _ _ :=
    Contract.safe_of_always ((always_upsertRendition _ _ _).mono pointer_unpublishing)
  publish audiobook s hs hknown := safe_maybePublishAudiobook_of_forward audiobook s hs hknown.2

theorem pointerInvariant_of_nothingAssembled {s : Store} (h : NothingAssembled s) :
    PointerInvariant s where
  audiobookIds := by simp [h.audiobooks]
  published book hbook i hi := by simp [h.books book hbook] at hi

/-- In every run whose accesses go forward, the published version of a book never decreases. -/
theorem publishedVersion_mono (computeManifestHash : List (Id × Hash) → Hash)
    {c c' : Config Store Access Fault}
    (hc : (assemblySystem computeManifestHash).Reachable Access.Forward c)
    (hrun : (assemblySystem computeManifestHash).Run Access.Forward c c') {bookId : Id} {v : ℕ}
    (hv : publishedVersion bookId c.store = some v) :
    ∃ v', publishedVersion bookId c'.store = some v' ∧ v ≤ v' := by
  have hrespects := pointerRules.respects (fun s h => pointerInvariant_of_nothingAssembled h)
    computeManifestHash
  obtain ⟨s₀, hinit, hev⟩ := hrespects.evolves_of_reachable hc
  have hs := (hev (pointerInvariant_of_nothingAssembled hinit)).1
  exact (hrespects.evolves_of_run hc hrun hs).2.forward bookId v hv

/-- The first version of the small book's audiobook is published. -/
def firstPublished : List (Move AssemblyRequest Fault) :=
  audiobookAssembled [.m4b] 21 ++ alone 3 17 (firstDelivery (encodeEnvelope 104 103 .m4b) 79)

def publishedVersionOfBook : Store → Option ℕ := publishedVersion 1

/-- The second version is published after the first one. -/
theorem firstPublished_secondPublished :
    ∃ c c' : Config Store Access Fault, publishedVersion 1 c.store = some 1 ∧
      (assemblySystem polynomialDigest).Run Access.Forward ⟨narratedBook, []⟩ c ∧
      (assemblySystem polynomialDigest).Run Access.Forward c c' ∧
      ∃ v', publishedVersion 1 c'.store = some v' ∧ 1 ≤ v' := by
  have hplay : ((assemblySystem polynomialDigest).playAll Access.Forward ⟨narratedBook, []⟩
      firstPublished).bind (fun c₁ =>
        ((assemblySystem polynomialDigest).playAll Access.Forward c₁ (reassembled 4 106)).map
          fun c₂ => (publishedVersionOfBook c₁.store, publishedVersionOfBook c₂.store)) =
      some (some 1, some 2) := by decide +kernel
  obtain ⟨c, c', hrun, hrun', hv, -⟩ := System.exists_run_run_of_playAll
    (f := publishedVersionOfBook) (g := publishedVersionOfBook) hplay
  exact ⟨c, c', hv, hrun, hrun', publishedVersion_mono polynomialDigest
    ⟨narratedBook, nothingAssembled_narratedBook, hrun⟩ hrun' hv⟩

/-- The second version is published, and the last encode of the first one is about to finish. -/
def supersededLate : List (Move AssemblyRequest Fault) :=
  audiobookAssembled [.m4b] 21 ++ reassembled 3 105 ++
    alone 10 16 (firstDelivery (encodeEnvelope 104 103 .m4b) 79)

/-- It is not so that the published version never decreases: an audiobook whose last encode
finishes late is published over its successor. -/
theorem not_forall_publishedVersion_mono :
    ¬ ∀ (computeManifestHash : List (Id × Hash) → Hash) (c c' : Config Store Access Fault),
      (assemblySystem computeManifestHash).Reachable anyAccess c →
      (assemblySystem computeManifestHash).Step anyAccess c c' →
      ∀ bookId v v', publishedVersion bookId c.store = some v →
        publishedVersion bookId c'.store = some v' → v ≤ v' := by
  intro h
  have hplay : ((assemblySystem polynomialDigest).playAll anyAccess ⟨narratedBook, []⟩
      supersededLate).bind (fun c₁ =>
        ((assemblySystem polynomialDigest).play anyAccess c₁ (.proceed 10)).map fun c₂ =>
          (publishedVersionOfBook c₁.store, publishedVersionOfBook c₂.store)) =
      some (some 2, some 1) := by decide +kernel
  obtain ⟨c, c', hrun, hstep, hv, hv'⟩ := System.exists_run_step_of_playAll
    (f := publishedVersionOfBook) (g := publishedVersionOfBook) hplay
  have hle := h polynomialDigest c c' ⟨narratedBook, nothingAssembled_narratedBook, hrun⟩ hstep
    1 2 1 hv hv'
  exact absurd hle (by decide)

end AudioBook
