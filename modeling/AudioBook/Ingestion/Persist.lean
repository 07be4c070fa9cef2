import AudioBook.Jobs.Writes
import AudioBook.Schema.Constraints
import Mathlib.Algebra.GroupWithZero.Nat
import Mathlib.Order.Nat

/-!
# Persisting an Ingested Book Version

The transaction of `persistIngestionResult`: merge into an existing version of the same content,
or store a new version with its chapters and paragraphs and make it the book's current one.
-/

namespace AudioBook

open Relational

structure CanonicalParagraph where
  orderIndex : ℕ
  spinePosition : ℕ
  text : Text

structure CanonicalChapter where
  orderIndex : ℕ
  matterType : MatterType
  paragraphs : List CanonicalParagraph

/-- The numbering that `detectStructure` gives to the chapters it found, from chapter number
`chapterIndex` and spine counter `spineCounter` on: paragraphs count within their chapter, and
the spine counter goes on across chapters. -/
def numberChapters : ℕ → ℕ → List (MatterType × List Text) → List CanonicalChapter
  | _, _, [] => []
  | chapterIndex, spineCounter, (matterType, texts) :: rest =>
      { orderIndex := chapterIndex
        matterType := matterType
        paragraphs := texts.mapIdx fun i text =>
          { orderIndex := i, spinePosition := spineCounter + i, text := text } } ::
        numberChapters (chapterIndex + 1) (spineCounter + texts.length) rest

/-- The `chapter` rows of a version. -/
def chapterRows (bookId bookVersionId : Id) (chapterIds : List Id)
    (chapters : List CanonicalChapter) : List Chapter :=
  (chapterIds.zip chapters).map fun (id, chapter) =>
    { id := id
      bookId := bookId
      bookVersionId := bookVersionId
      orderIndex := chapter.orderIndex
      matterType := chapter.matterType }

def chapterParagraphs (chapterIds : List Id) (chapters : List CanonicalChapter) :
    List (Id × CanonicalParagraph) :=
  (chapterIds.zip chapters).flatMap fun (chapterId, chapter) =>
    chapter.paragraphs.map fun paragraph => (chapterId, paragraph)

/-- The `paragraph` rows of a version. -/
def paragraphRows (bookVersionId : Id) (paragraphIds : List Id)
    (paragraphs : List (Id × CanonicalParagraph)) : List Paragraph :=
  (paragraphIds.zip paragraphs).map fun (id, chapterId, paragraph) =>
    { id := id
      bookVersionId := bookVersionId
      chapterId := chapterId
      orderIndex := paragraph.orderIndex
      spinePosition := paragraph.spinePosition
      text := paragraph.text }

def persistStructure (bookId bookVersionId : Id) (chapters : List CanonicalChapter) :
    Tx Unit := do
  let chapterIds ← generateIds chapters.length
  Db.chapter.insertMany (chapterRows bookId bookVersionId chapterIds chapters)
  let paragraphs := chapterParagraphs chapterIds chapters
  let paragraphIds ← generateIds paragraphs.length
  Db.paragraph.insertMany (paragraphRows bookVersionId paragraphIds paragraphs)

/-- What ingestion computed for a book before it opens its transaction. -/
structure IngestionResult where
  pipelineVersion : ℕ
  contentHash : Hash
  /-- The chapters that `detectStructure` found, before they are numbered. -/
  chapters : List (MatterType × List Text)

/-- The version of the same content that is already stored, if any. -/
def findExistingVersion (bookId : Id) (result : IngestionResult) (s : Store) :
    Option BookVersion :=
  s.bookVersions.find? fun v => decide (v.bookId = bookId ∧
    v.pipelineVersion = result.pipelineVersion ∧ v.contentHash = result.contentHash ∧
    v.superseded = false)

/-- The row of a new version: current from the start. -/
def newBookVersion (bookVersionId bookId : Id) (version : ℕ) (result : IngestionResult) :
    BookVersion where
  id := bookVersionId
  bookId := bookId
  version := version
  isCurrent := true
  contentHash := result.contentHash
  pipelineVersion := result.pipelineVersion

/-- Store an ingestion result as version `version` of a book. The new version is inserted as
current before the old one is retired. -/
def persistIngestionResult (jobId bookId : Id) (version : ℕ) (result : IngestionResult) :
    Tx Id := do
  match findExistingVersion bookId result (← get) with
  | some existing =>
      markSucceeded jobId
      return existing.id
  | none =>
      let bookVersionId ← generateId
      Db.bookVersion.insert (newBookVersion bookVersionId bookId version result)
      Db.bookVersion.update
        (fun v => decide (v.bookId = bookId ∧ v.isCurrent ∧ v.id ≠ bookVersionId))
        fun v =>
          { v with
            isCurrent := false
            superseded := true
            supersededByBookVersionId := some bookVersionId }
      persistStructure bookId bookVersionId (numberChapters 0 0 result.chapters)
      Db.book.update (fun book => decide (book.id = bookId)) fun book =>
        { book with currentBookVersionId := some bookVersionId }
      markSucceeded jobId
      return bookVersionId

/-! ## Numbering -/

theorem numberChapters_length (k spine : ℕ) (raw : List (MatterType × List Text)) :
    (numberChapters k spine raw).length = raw.length := by
  induction raw generalizing k spine with
  | nil => rfl
  | cons c raw ih => simp [numberChapters, ih]

theorem numberChapters_orderIndex (k spine : ℕ) (raw : List (MatterType × List Text)) :
    (numberChapters k spine raw).map CanonicalChapter.orderIndex = List.range' k raw.length := by
  induction raw generalizing k spine with
  | nil => rfl
  | cons c raw ih => simp [numberChapters, ih, List.range'_succ]

private theorem mapIdx_spinePosition (spine : ℕ) (texts : List Text) :
    (texts.mapIdx fun i text =>
      ({ orderIndex := i, spinePosition := spine + i, text := text } : CanonicalParagraph)).map
        CanonicalParagraph.spinePosition = List.range' spine texts.length := by
  refine List.ext_getElem (by simp) fun i h₁ h₂ => ?_
  simp

theorem numberChapters_spinePosition (k spine : ℕ) (raw : List (MatterType × List Text)) :
    (numberChapters k spine raw).flatMap
        (fun c => c.paragraphs.map CanonicalParagraph.spinePosition) =
      List.range' spine (raw.map fun c => c.2.length).sum := by
  induction raw generalizing k spine with
  | nil => rfl
  | cons c raw ih =>
    rw [numberChapters, List.flatMap_cons, ih, mapIdx_spinePosition, List.map_cons,
      List.sum_cons, ← List.range'_append_1]

variable {chapterIds : List Id}

theorem chapterParagraphs_spinePosition {chapters : List CanonicalChapter}
    (hlen : chapterIds.length = chapters.length) :
    (chapterParagraphs chapterIds chapters).map (fun p => p.2.spinePosition) =
      chapters.flatMap fun c => c.paragraphs.map CanonicalParagraph.spinePosition := by
  rw [chapterParagraphs, List.map_flatMap]
  conv_rhs => rw [← List.map_snd_zip hlen.ge]
  rw [List.flatMap_map]
  refine List.flatMap_congr fun c _ => ?_
  rw [List.map_map]
  rfl

/-! ## Storing a Structure Succeeds -/

private theorem nodup_append_range' {ids : List ℕ} {next n : ℕ} (hids : ids.Nodup)
    (hfresh : ∀ i ∈ ids, i < next) : (ids ++ List.range' next n).Nodup := by
  refine List.nodup_append.mpr ⟨hids, List.nodup_range', fun i hi j hj hij => ?_⟩
  have hlt := hfresh i hi
  have hle := (List.mem_range'_1.mp hj).1
  omega

variable {raw : List (MatterType × List Text)} {bookVersionId : Id}

private theorem chapter_accepts_append {rows : List Chapter} {bookId next : Id}
    (hok : Db.chapter.Accepts rows) (hfresh : ∀ c ∈ rows, c.id < next)
    (hnew : ∀ c ∈ rows, c.bookVersionId ≠ bookVersionId) :
    Db.chapter.Accepts (rows ++ chapterRows bookId bookVersionId (List.range' next raw.length)
      (numberChapters 0 0 raw)) := by
  obtain ⟨hid, horder⟩ := Db.chapter_accepts_iff.mp hok
  have hlen : (List.range' next raw.length).length = (numberChapters 0 0 raw).length := by
    simp [numberChapters_length]
  have hids : (chapterRows bookId bookVersionId (List.range' next raw.length)
      (numberChapters 0 0 raw)).map Chapter.id = List.range' next raw.length := by
    rw [chapterRows, List.map_map]
    exact List.map_fst_zip hlen.le
  have horders : (chapterRows bookId bookVersionId (List.range' next raw.length)
      (numberChapters 0 0 raw)).map (fun c => (c.bookVersionId, c.orderIndex)) =
        (List.range' 0 raw.length).map fun i => (bookVersionId, i) := by
    rw [← numberChapters_orderIndex 0 0 raw, chapterRows, List.map_map, List.map_map]
    conv_rhs => rw [← List.map_snd_zip hlen.ge]
    rw [List.map_map]
    rfl
  refine Db.chapter_accepts_iff.mpr ⟨?_, ?_⟩
  · rw [List.map_append, hids]
    exact nodup_append_range' hid (by simpa using hfresh)
  · rw [List.map_append, horders, List.nodup_append]
    refine ⟨horder, List.Nodup.map (fun _ _ h => (Prod.mk.inj h).2) List.nodup_range', ?_⟩
    rintro a ha b hb rfl
    obtain ⟨c, hc, rfl⟩ := List.mem_map.mp ha
    obtain ⟨i, -, hi⟩ := List.mem_map.mp hb
    exact hnew c hc (Prod.mk.inj hi).1.symm

private theorem paragraph_accepts_append {rows : List Paragraph} {next : Id}
    (hlen : chapterIds.length = raw.length) (hok : Db.paragraph.Accepts rows)
    (hfresh : ∀ p ∈ rows, p.id < next) (hnew : ∀ p ∈ rows, p.bookVersionId ≠ bookVersionId) :
    Db.paragraph.Accepts (rows ++ paragraphRows bookVersionId
      (List.range' next (chapterParagraphs chapterIds (numberChapters 0 0 raw)).length)
      (chapterParagraphs chapterIds (numberChapters 0 0 raw))) := by
  obtain ⟨hid, hspine⟩ := Db.paragraph_accepts_iff.mp hok
  have hspines : (chapterParagraphs chapterIds (numberChapters 0 0 raw)).map
      (fun p => p.2.spinePosition) = List.range' 0 (raw.map fun c => c.2.length).sum := by
    rw [chapterParagraphs_spinePosition (by simp [numberChapters_length, hlen]),
      numberChapters_spinePosition]
  generalize chapterParagraphs chapterIds (numberChapters 0 0 raw) = pairs at hspines ⊢
  have hids : (paragraphRows bookVersionId (List.range' next pairs.length) pairs).map
      Paragraph.id = List.range' next pairs.length := by
    rw [paragraphRows, List.map_map]
    exact List.map_fst_zip (by simp)
  have hkeys : (paragraphRows bookVersionId (List.range' next pairs.length) pairs).map
      (fun p => (p.bookVersionId, p.spinePosition)) =
        (pairs.map fun p => p.2.spinePosition).map fun i => (bookVersionId, i) := by
    rw [paragraphRows, List.map_map, List.map_map]
    have hlen' : (List.range' next pairs.length).length = pairs.length := by simp
    conv_rhs => rw [← List.map_snd_zip hlen'.ge]
    rw [List.map_map]
    rfl
  refine Db.paragraph_accepts_iff.mpr ⟨?_, ?_⟩
  · rw [List.map_append, hids]
    exact nodup_append_range' hid (by simpa using hfresh)
  · rw [List.map_append, hkeys, hspines, List.nodup_append]
    refine ⟨hspine, List.Nodup.map (fun _ _ h => (Prod.mk.inj h).2) List.nodup_range', ?_⟩
    rintro a ha b hb rfl
    obtain ⟨p, hp, rfl⟩ := List.mem_map.mp ha
    obtain ⟨i, -, hi⟩ := List.mem_map.mp hb
    exact hnew p hp (Prod.mk.inj hi).1.symm

theorem persistStructure_eq_ok {s : Store} {bookId : Id}
    {paragraphs : List (Id × CanonicalParagraph)}
    (hids : chapterIds = List.range' s.nextId raw.length)
    (hpars : paragraphs = chapterParagraphs chapterIds (numberChapters 0 0 raw))
    (hchapters : Db.chapter.Holds s) (hparagraphs : Db.paragraph.Holds s)
    (hcfresh : ∀ c ∈ s.chapters, c.id < s.nextId) (hpfresh : ∀ p ∈ s.paragraphs, p.id < s.nextId)
    (hcnew : ∀ c ∈ s.chapters, c.bookVersionId ≠ bookVersionId)
    (hpnew : ∀ p ∈ s.paragraphs, p.bookVersionId ≠ bookVersionId) :
    persistStructure bookId bookVersionId (numberChapters 0 0 raw) s =
      .ok ((), { s with
        chapters := s.chapters ++
          chapterRows bookId bookVersionId chapterIds (numberChapters 0 0 raw)
        paragraphs := s.paragraphs ++ paragraphRows bookVersionId
          (List.range' (s.nextId + raw.length) paragraphs.length) paragraphs
        nextId := s.nextId + raw.length + paragraphs.length }) := by
  subst hpars hids
  have hc : Db.chapter.Accepts (s.chapters ++ chapterRows bookId bookVersionId
      (List.range' s.nextId raw.length) (numberChapters 0 0 raw)) :=
    chapter_accepts_append hchapters hcfresh hcnew
  have hp := paragraph_accepts_append
    (show (List.range' s.nextId raw.length).length = raw.length by simp) hparagraphs
    (fun p hp => Nat.lt_add_right raw.length (hpfresh p hp)) hpnew
  rw [persistStructure, Transaction.bind_eq_of_ok rfl, numberChapters_length]
  have hinsert : (Db.chapter.insertMany (chapterRows bookId bookVersionId
      (List.range' s.nextId raw.length) (numberChapters 0 0 raw)) : Tx Unit)
        { s with nextId := s.nextId + raw.length } = .ok ((), { s with
          chapters := s.chapters ++ chapterRows bookId bookVersionId
            (List.range' s.nextId raw.length) (numberChapters 0 0 raw)
          nextId := s.nextId + raw.length }) :=
    (Table.insertMany_eq_ok_iff _).mpr ⟨hc, rfl⟩
  rw [Transaction.bind_eq_of_ok hinsert]
  refine (Transaction.bind_eq_of_ok rfl).trans ?_
  exact (Table.insertMany_eq_ok_iff _).mpr ⟨hp, rfl⟩

end AudioBook
