import AudioBook.Concurrent.Uniform
import AudioBook.Ingestion.SpineRanges
import AudioBook.Ingestion.Versions

/-!
# What Is Left After a Re-ingestion

A run that succeeds should leave a book that is no longer being parsed, whose current version holds
the structure that the run detected. A run whose text is not stored yet does. A run whose text is
stored already leaves the book and its version as they are, whatever it detected.

Main results:

- `persistRun_eq_ok`: what the transaction of a run that succeeds does.
- `reingested_iff`: when a run that succeeds leaves what it should.
-/

namespace AudioBook.Structure

open Relational Concurrent

/-! ## The Structure a Version Holds -/

structure OutlineIds (chapters : List CanonicalChapter) where
  chapterIds : List Id
  sectionIds : List (List Id)
  chapters_length : chapterIds.length = chapters.length
  sections_length : sectionIds.map List.length = chapters.map fun c => c.sections.length
  chapters_nodup : chapterIds.Nodup
  sections_nodup : sectionIds.flatten.Nodup

namespace OutlineIds

variable {chapters : List CanonicalChapter} (ids : OutlineIds chapters)

def identified : List (Id × List Id × CanonicalChapter) :=
  Structure.identified ids.chapterIds ids.sectionIds chapters

def chapterOutlines : List ChapterOutline :=
  (ids.chapterIds.zip chapters).map fun (id, chapter) =>
    { id := id
      orderIndex := chapter.orderIndex
      spineStart := chapter.spineStart
      spineEnd := chapter.spineEnd
      title := chapter.title
      matterType := chapter.matterType }

def sectionOutlines : List SectionOutline :=
  ids.identified.flatMap fun (chapterId, sectionIds, chapter) =>
    (sectionIds.zip chapter.sections).map fun (id, s) =>
      { id := id
        chapterId := chapterId
        orderIndex := s.orderIndex
        spineStart := s.spineStart
        spineEnd := s.spineEnd
        title := s.title }

def paragraphOutlines : List ParagraphOutline :=
  (placedParagraphs ids.identified).map fun (chapterId, sectionId, paragraph) =>
    { chapterId := chapterId
      sectionId := sectionId
      orderIndex := paragraph.orderIndex
      spinePosition := paragraph.spinePosition
      text := paragraph.text }

end OutlineIds

/-- The stored chapters, sections and paragraphs of a version are exactly those of a structure. -/
def HoldsStructure (bookVersionId : Id) (chapters : List CanonicalChapter) (s : IngestStore) :
    Prop :=
  ∃ ids : OutlineIds chapters,
    ((s.chapters.filter fun c => decide (c.bookVersionId = bookVersionId)).map
      ChapterRow.toChapterOutline).Perm ids.chapterOutlines ∧
    ((s.sections.filter fun row => decide (row.bookVersionId = bookVersionId)).map
      SectionRow.toSectionOutline).Perm ids.sectionOutlines ∧
    ((s.paragraphs.filter fun p => decide (p.bookVersionId = bookVersionId)).map
      ParagraphRow.toParagraphOutline).Perm ids.paragraphOutlines

/-- The book is not being parsed, and its current version holds the structure. -/
def Reingested (bookId : Id) (chapters : List CanonicalChapter) (s : IngestStore) : Prop :=
  ∃ book, findBook bookId s = some book ∧ book.status ≠ .parsing ∧
    ∃ v ∈ s.bookVersions, v.bookId = bookId ∧ v.isCurrent = true ∧
      book.currentBookVersionId = some v.id ∧ HoldsStructure v.id chapters s

theorem HoldsStructure.titles {bookVersionId : Id} {chapters : List CanonicalChapter}
    {s : IngestStore} (h : HoldsStructure bookVersionId chapters s) :
    ((s.chapters.filter fun c => decide (c.bookVersionId = bookVersionId)).map
      fun c => c.title).Perm (chapters.map CanonicalChapter.title) := by
  obtain ⟨ids, hchapters, -, -⟩ := h
  have htitles := hchapters.map ChapterOutline.title
  have hsnd : (ids.chapterIds.zip chapters).map Prod.snd = chapters :=
    List.map_snd_zip ids.chapters_length.ge
  rw [List.map_map, OutlineIds.chapterOutlines, List.map_map] at htitles
  conv_rhs => rw [← hsnd, List.map_map]
  exact htitles

/-! ## Fresh Ids -/

/-- The ids that `persistChapters` gives to the sections. -/
def sectionIdsFrom : Id → List CanonicalChapter → List (List Id)
  | _, [] => []
  | next, chapter :: chapters =>
      List.range' next chapter.sections.length ::
        sectionIdsFrom (next + chapter.sections.length) chapters

def sectionCount (chapters : List CanonicalChapter) : ℕ :=
  (chapters.map fun chapter => chapter.sections.length).sum

@[simp]
theorem sectionCount_cons (chapter : CanonicalChapter) (chapters : List CanonicalChapter) :
    sectionCount (chapter :: chapters) = chapter.sections.length + sectionCount chapters := rfl

theorem sectionIdsFrom_length (next : Id) (chapters : List CanonicalChapter) :
    (sectionIdsFrom next chapters).map List.length = chapters.map fun c => c.sections.length := by
  induction chapters generalizing next with
  | nil => rfl
  | cons chapter chapters ih => simp [sectionIdsFrom, ih]

theorem flatten_sectionIdsFrom (next : Id) (chapters : List CanonicalChapter) :
    (sectionIdsFrom next chapters).flatten = List.range' next (sectionCount chapters) := by
  induction chapters generalizing next with
  | nil => rfl
  | cons chapter chapters ih =>
    rw [sectionIdsFrom, List.flatten_cons, ih, sectionCount_cons, ← List.range'_append_1]

/-- The ids that a run hands out from `next` on. -/
def OutlineIds.from (next : Id) (chapters : List CanonicalChapter) : OutlineIds chapters where
  chapterIds := List.range' next chapters.length
  sectionIds := sectionIdsFrom (next + chapters.length) chapters
  chapters_length := List.length_range'
  sections_length := sectionIdsFrom_length _ chapters
  chapters_nodup := List.nodup_range'
  sections_nodup := by
    rw [flatten_sectionIdsFrom]
    exact List.nodup_range'

theorem mapM_newIds (chapters : List CanonicalChapter) (s : IngestStore) :
    (chapters.mapM fun chapter => newIds chapter.sections.length) s =
      .ok (sectionIdsFrom s.nextId chapters,
        { s with nextId := s.nextId + sectionCount chapters }) := by
  induction chapters generalizing s with
  | nil => rfl
  | cons chapter chapters ih =>
    rw [List.mapM_cons]
    have hnew : newIds chapter.sections.length s = .ok (List.range' s.nextId chapter.sections.length,
        { s with nextId := s.nextId + chapter.sections.length }) := rfl
    rw [Transaction.bind_eq_of_ok hnew, Transaction.bind_eq_of_ok (ih _)]
    simp only [sectionIdsFrom, sectionCount_cons, Nat.add_assoc]
    rfl

/-! ## What the Statements Do -/

section statements

variable {s s' : IngestStore} {u : Unit}

theorem insertAny_eq_ok {ρ : Type} {T : Table IngestStore ρ} {rows : List ρ}
    (hset : ∀ s, T.setRows (T.rows s) s = s) (h : insertAny T rows s = .ok (u, s')) :
    s' = T.setRows (T.rows s ++ rows) s := by
  rw [insertAny] at h
  split at h
  · next hempty =>
    obtain ⟨-, rfl⟩ := Transaction.pure_eq_ok_iff.mp h
    rw [List.isEmpty_iff.mp hempty, List.append_nil, hset]
  · exact (T.insertMany_eq_ok_iff.mp h).2

theorem updateBook_eq_ok {bookId : Id} {f : IngestedBook → IngestedBook}
    (h : updateBook bookId f s = .ok (u, s')) :
    (findBook bookId s).isSome ∧
      s' = { s with books := updateWhere (fun book => decide (book.id = bookId)) f s.books } := by
  obtain ⟨s₁, _, hget, h⟩ := Transaction.bind_eq_ok_iff.mp h
  cases hget
  split at h
  · next hnone => cases h
  · next hsome =>
    exact ⟨by simpa [Option.isSome_iff_ne_none] using hsome, (IngestDb.book.update_eq_ok_iff.mp h).2⟩

theorem updateParseJob_eq_ok {jobId : Id} {f : ParseJob → ParseJob}
    (h : updateParseJob jobId f s = .ok (u, s')) :
    s' = { s with jobs := updateWhere (fun job => decide (job.id = jobId)) f s.jobs } := by
  obtain ⟨s₁, _, hget, h⟩ := Transaction.bind_eq_ok_iff.mp h
  cases hget
  split at h
  · next hnone => cases h
  · exact (IngestDb.processingJob.update_eq_ok_iff.mp h).2

end statements

/-! ## A Run That Succeeds -/

variable (sha256Hex : Text → Hash)

theorem persistChapters_eq_ok {s s' : IngestStore} {u : Unit} {bookId bookVersionId : Id}
    {chapters : List CanonicalChapter} {pageIds : ℕ → Option Id} {ids : OutlineIds chapters}
    (hids : ids = .from s.nextId chapters)
    (h : persistChapters sha256Hex bookId bookVersionId chapters pageIds s = .ok (u, s')) :
    ∃ paragraphIds nextId, paragraphIds.length = (placedParagraphs ids.identified).length ∧
      s.nextId ≤ nextId ∧
      s' = { s with
        chapters := s.chapters ++ versionChapters bookId bookVersionId ids.chapterIds chapters
        sections := s.sections ++ versionSections bookId bookVersionId ids.identified
        paragraphs := s.paragraphs ++ versionParagraphs sha256Hex bookId bookVersionId pageIds
          paragraphIds (placedParagraphs ids.identified)
        nextId := nextId } := by
  subst hids
  obtain ⟨chapterIds, _, hnew, h⟩ := Transaction.bind_eq_ok_iff.mp h
  cases hnew
  rw [Transaction.bind_eq_of_ok (mapM_newIds chapters _)] at h
  obtain ⟨_, s₁, hchapters, h⟩ := Transaction.bind_eq_ok_iff.mp h
  obtain ⟨-, rfl⟩ := IngestDb.chapter.insertMany_eq_ok_iff.mp hchapters
  obtain ⟨_, s₂, hsections, h⟩ := Transaction.bind_eq_ok_iff.mp h
  obtain rfl := insertAny_eq_ok (fun _ => rfl) hsections
  obtain ⟨paragraphIds, _, hnew, h⟩ := Transaction.bind_eq_ok_iff.mp h
  cases hnew
  obtain rfl := insertAny_eq_ok (fun _ => rfl) h
  refine ⟨_, _, List.length_range', ?_, rfl⟩
  exact (Nat.le_add_right _ _).trans ((Nat.le_add_right _ _).trans (Nat.le_add_right _ _))

theorem persistVersion_eq_ok {s s' : IngestStore} {run : IngestionRun} {v : Id}
    (h : persistVersion sha256Hex run s = .ok (v, s')) :
    v = s.nextId ∧ s.nextId < s'.nextId ∧ (findBook run.bookId s).isSome ∧
      (∃ status, status ≠ .parsing ∧ ∃ needsReview, s'.books = updateWhere
        (fun book => decide (book.id = run.bookId))
        (fun book => { book with
          status := status
          needsReview := needsReview
          currentBookVersionId := some v }) s.books) ∧
      (∃ row ∈ s'.bookVersions, row.id = v ∧ row.bookId = run.bookId ∧ row.isCurrent = true) ∧
      ∃ ids : OutlineIds run.result.chapters, ∃ paragraphIds pageIds,
        paragraphIds.length = (placedParagraphs ids.identified).length ∧
        s'.chapters = s.chapters ++
          versionChapters run.bookId v ids.chapterIds run.result.chapters ∧
        s'.sections = s.sections ++ versionSections run.bookId v ids.identified ∧
        s'.paragraphs = s.paragraphs ++ versionParagraphs sha256Hex run.bookId v pageIds
          paragraphIds (placedParagraphs ids.identified) := by
  obtain ⟨bookVersionId, _, hnew, h⟩ := Transaction.bind_eq_ok_iff.mp h
  cases hnew
  obtain ⟨_, s₁, hinsert, h⟩ := Transaction.bind_eq_ok_iff.mp h
  obtain ⟨-, rfl⟩ := IngestDb.bookVersion.insert_eq_ok_iff.mp hinsert
  obtain ⟨_, s₂, hretire, h⟩ := Transaction.bind_eq_ok_iff.mp h
  obtain ⟨-, rfl⟩ := IngestDb.bookVersion.update_eq_ok_iff.mp hretire
  obtain ⟨pageIds, _, hnew, h⟩ := Transaction.bind_eq_ok_iff.mp h
  cases hnew
  obtain ⟨_, s₃, hpages, h⟩ := Transaction.bind_eq_ok_iff.mp h
  obtain rfl := insertAny_eq_ok (fun _ => rfl) hpages
  obtain ⟨_, s₄, hchapters, h⟩ := Transaction.bind_eq_ok_iff.mp h
  obtain ⟨paragraphIds, nextId, hlength, hnext, rfl⟩ := persistChapters_eq_ok sha256Hex rfl hchapters
  obtain ⟨_, s₅, hbook, h⟩ := Transaction.bind_eq_ok_iff.mp h
  obtain ⟨hfound, rfl⟩ := updateBook_eq_ok hbook
  obtain ⟨_, s₆, hjob, h⟩ := Transaction.bind_eq_ok_iff.mp h
  obtain rfl := updateParseJob_eq_ok hjob
  cases h
  refine ⟨rfl, ?_, hfound, ⟨_, ?_, _, rfl⟩, ⟨run.newVersion s.nextId, ?_, rfl, rfl, rfl⟩, _,
    paragraphIds, _, hlength, rfl, rfl, rfl⟩
  · exact (Nat.lt_succ_self s.nextId).trans_le ((Nat.le_add_right _ _).trans hnext)
  · split <;> decide
  · refine mem_updateWhere.mpr (.inr ⟨by simp [IngestDb.bookVersion], ?_⟩)
    simp [IngestionRun.newVersion]

theorem filter_version_append {ρ : Type} {rows new : List ρ} {version : ρ → Id} {v : Id}
    (hold : ∀ r ∈ rows, version r < v) (hnew : ∀ r ∈ new, version r = v) :
    ((rows ++ new).filter fun r => decide (version r = v)) = new := by
  rw [List.filter_append, List.filter_eq_nil_iff.mpr, List.filter_eq_self.mpr, List.nil_append]
  · exact fun r hr => decide_eq_true (hnew r hr)
  · exact fun r hr => by simpa using (hold r hr).ne

/-- Every stored row belongs to a version whose id was handed out. -/
structure Issued (s : IngestStore) : Prop where
  chapters : ∀ c ∈ s.chapters, c.bookVersionId < s.nextId
  sections : ∀ row ∈ s.sections, row.bookVersionId < s.nextId
  paragraphs : ∀ p ∈ s.paragraphs, p.bookVersionId < s.nextId

theorem bookVersionId_of_mem_versionSections {bookId v : Id}
    {chapters : List (Id × List Id × CanonicalChapter)} {row : SectionRow}
    (h : row ∈ versionSections bookId v chapters) : row.bookVersionId = v := by
  obtain ⟨_, -, hrow⟩ := List.mem_flatMap.mp h
  obtain ⟨_, -, rfl⟩ := List.mem_map.mp hrow
  rfl

section stored

variable {s s' : IngestStore} {run : IngestionRun} {v : Id}

theorem holdsStructure_of_persistVersion (hs : Issued s)
    (h : persistVersion sha256Hex run s = .ok (v, s')) :
    HoldsStructure v run.result.chapters s' := by
  obtain ⟨rfl, -, -, -, -, ids, paragraphIds, pageIds, hlength, hchapters, hsections, hparagraphs⟩ :=
    persistVersion_eq_ok sha256Hex h
  refine ⟨ids, ?_, ?_, ?_⟩
  · rw [hchapters, filter_version_append hs.chapters fun c hc => by
      obtain ⟨_, -, rfl⟩ := List.mem_map.mp hc
      rfl]
    rw [versionChapters, List.map_map]
    exact .rfl
  · rw [hsections, filter_version_append hs.sections fun row hrow =>
      bookVersionId_of_mem_versionSections hrow]
    rw [versionSections, List.map_flatMap, OutlineIds.sectionOutlines]
    simp only [List.map_map]
    exact .rfl
  · rw [hparagraphs, filter_version_append hs.paragraphs fun p hp => by
      obtain ⟨_, -, rfl⟩ := List.mem_map.mp hp
      rfl]
    have hsnd : (paragraphIds.zip (placedParagraphs ids.identified)).map Prod.snd =
        placedParagraphs ids.identified := List.map_snd_zip hlength.ge
    rw [versionParagraphs, List.map_map, OutlineIds.paragraphOutlines]
    conv_rhs => rw [← hsnd, List.map_map]
    exact .rfl

theorem reingested_of_persistVersion (hs : Issued s)
    (h : persistVersion sha256Hex run s = .ok (v, s')) :
    Reingested run.bookId run.result.chapters s' := by
  have hholds := holdsStructure_of_persistVersion sha256Hex hs h
  obtain ⟨-, -, hfound, ⟨status, hstatus, needsReview, hbooks⟩, ⟨row, hrow, rfl, hbook, hcurrent⟩,
    -⟩ := persistVersion_eq_ok sha256Hex h
  obtain ⟨book, hbookId⟩ := Option.isSome_iff_exists.mp hfound
  have hid : book.id = run.bookId := by
    have hfind := List.find?_some hbookId
    exact of_decide_eq_true hfind
  refine ⟨{ book with
    status := status
    needsReview := needsReview
    currentBookVersionId := some row.id }, ?_, hstatus, row, hrow, hbook, hcurrent, rfl, hholds⟩
  rw [findBook] at hbookId
  rw [findBook, hbooks]
  rw [find?_updateWhere (g := IngestedBook.id) (by intro _; rfl)]
  simp [hbookId, hid]

theorem persistRun_eq_ok_of_same {existing : IngestedVersion}
    (hsame : findSameContent run s = some existing) (h : persistRun sha256Hex run s = .ok (v, s')) :
    v = existing.id ∧ ∃ jobs, s' = { s with jobs := jobs } := by
  obtain ⟨_, _, hget, h⟩ := Transaction.bind_eq_ok_iff.mp h
  cases hget
  rw [hsame] at h
  obtain ⟨_, s₁, hjob, h⟩ := Transaction.bind_eq_ok_iff.mp h
  obtain ⟨rfl, rfl⟩ := Transaction.pure_eq_ok_iff.mp h
  exact ⟨rfl, _, updateParseJob_eq_ok hjob⟩

theorem persistRun_of_new (hnew : findSameContent run s = none) :
    persistRun sha256Hex run s = persistVersion sha256Hex run s := by
  rw [persistRun, Transaction.bind_eq_of_ok (show (get : IngestTx IngestStore) s = .ok (s, s) from rfl),
    hnew]

end stored

/-! ## Every Reachable Store -/

/-- The stored structures are untouched, and ids are only handed out. -/
structure Untouched (s s' : IngestStore) : Prop where
  chapters : s'.chapters = s.chapters
  sections : s'.sections = s.sections
  paragraphs : s'.paragraphs = s.paragraphs
  nextId : s.nextId ≤ s'.nextId

instance : IsPreorder IngestStore Untouched where
  refl _ := ⟨rfl, rfl, rfl, le_rfl⟩
  trans _ _ _ h h' := ⟨h'.chapters.trans h.chapters, h'.sections.trans h.sections,
    h'.paragraphs.trans h.paragraphs, h.nextId.trans h'.nextId⟩

theorem Issued.of_untouched {s s' : IngestStore} (hs : Issued s) (h : Untouched s s') :
    Issued s' where
  chapters c hc := (hs.chapters c (h.chapters ▸ hc)).trans_le h.nextId
  sections row hrow := (hs.sections row (h.sections ▸ hrow)).trans_le h.nextId
  paragraphs p hp := (hs.paragraphs p (h.paragraphs ▸ hp)).trans_le h.nextId

theorem updateBook_untouched (bookId : Id) (f : IngestedBook → IngestedBook) :
    (updateBook bookId f).Within Untouched := by
  intro s _ s' h
  obtain ⟨-, rfl⟩ := updateBook_eq_ok h
  exact ⟨rfl, rfl, rfl, le_rfl⟩

theorem updateParseJob_untouched (jobId : Id) (f : ParseJob → ParseJob) :
    (updateParseJob jobId f).Within Untouched := by
  intro s _ s' h
  obtain rfl := updateParseJob_eq_ok h
  exact ⟨rfl, rfl, rfl, le_rfl⟩

theorem newId_untouched : newId.Within Untouched := by
  intro s _ s' h
  cases h
  exact ⟨rfl, rfl, rfl, Nat.le_succ _⟩

theorem writeOutboxMessage_untouched (message : IngestMessage) :
    (writeOutboxMessage message).Within Untouched :=
  Transaction.within_modify fun _ => ⟨rfl, rfl, rfl, le_rfl⟩

theorem createIngestionJob_untouched (bookFile : BookFile) (force : Bool) :
    (createIngestionJob bookFile force).Within Untouched := by
  refine Transaction.within_bind newId_untouched fun jobId => ?_
  refine Transaction.within_bind (Table.within_insert _ fun s _ => ⟨rfl, rfl, rfl, le_rfl⟩) fun _ => ?_
  exact Transaction.within_bind (updateBook_untouched _ _) fun _ => writeOutboxMessage_untouched _

theorem completeUpload_untouched (bookId : Id) (contentHash : Hash) :
    (completeUpload bookId contentHash).Within Untouched := by
  refine Transaction.within_bind newId_untouched fun bookFileId => ?_
  refine Transaction.within_bind newId_untouched fun jobId => ?_
  refine Transaction.within_bind (Table.within_insert _ fun s _ => ⟨rfl, rfl, rfl, le_rfl⟩) fun _ => ?_
  refine Transaction.within_bind (Table.within_insert _ fun s _ => ⟨rfl, rfl, rfl, le_rfl⟩) fun _ => ?_
  exact Transaction.within_bind (updateBook_untouched _ _) fun _ => writeOutboxMessage_untouched _

theorem failIngestion_untouched (jobId bookId : Id) (terminal : Bool) :
    (failIngestion jobId bookId terminal).Within Untouched := by
  refine Transaction.within_bind Transaction.within_get fun s => ?_
  split
  · exact Transaction.within_pure ()
  · split
    · exact Transaction.within_pure ()
    · refine Transaction.within_bind (updateParseJob_untouched _ _) fun _ => ?_
      exact Transaction.within_bind (updateBook_untouched _ _) fun _ =>
        writeOutboxMessage_untouched _

theorem Issued.persistRun {s s' : IngestStore} {run : IngestionRun} {v : Id} (hs : Issued s)
    (h : persistRun sha256Hex run s = .ok (v, s')) : Issued s' := by
  cases hsame : findSameContent run s with
  | some existing =>
    obtain ⟨-, jobs, rfl⟩ := persistRun_eq_ok_of_same sha256Hex hsame h
    exact ⟨hs.chapters, hs.sections, hs.paragraphs⟩
  | none =>
    rw [persistRun_of_new sha256Hex hsame] at h
    obtain ⟨rfl, hlt, -, -, -, ids, paragraphIds, pageIds, -, hchapters, hsections, hparagraphs⟩ :=
      persistVersion_eq_ok sha256Hex h
    refine ⟨fun c hc => ?_, fun row hrow => ?_, fun p hp => ?_⟩
    · rw [hchapters] at hc
      rcases List.mem_append.mp hc with hc | hc
      · exact (hs.chapters c hc).trans hlt
      · obtain ⟨_, -, rfl⟩ := List.mem_map.mp hc
        exact hlt
    · rw [hsections] at hrow
      rcases List.mem_append.mp hrow with hrow | hrow
      · exact (hs.sections row hrow).trans hlt
      · exact (bookVersionId_of_mem_versionSections hrow).trans_lt hlt
    · rw [hparagraphs] at hp
      rcases List.mem_append.mp hp with hp | hp
      · exact (hs.paragraphs p hp).trans hlt
      · obtain ⟨_, -, rfl⟩ := List.mem_map.mp hp
        exact hlt

theorem Issued.access {s s' : IngestStore} {u : Unit} (hs : Issued s) (a : IngestAccess)
    (h : a.tx sha256Hex s = .ok (u, s')) : Issued s' := by
  cases a with
  | query => exact (Transaction.pure_eq_ok_iff.mp h).2 ▸ hs
  | external => exact (Transaction.pure_eq_ok_iff.mp h).2 ▸ hs
  | createIngestionJob bookFile force =>
    exact hs.of_untouched (createIngestionJob_untouched bookFile force s _ s' h)
  | completeUpload bookId contentHash =>
    exact hs.of_untouched (completeUpload_untouched bookId contentHash s _ s' h)
  | markRunning jobId => exact hs.of_untouched (updateParseJob_untouched jobId _ s _ s' h)
  | persist run =>
    obtain ⟨v, s₁, hrun, h⟩ := Transaction.bind_eq_ok_iff.mp h
    obtain ⟨-, rfl⟩ := Transaction.pure_eq_ok_iff.mp h
    exact hs.persistRun sha256Hex hrun
  | fail jobId bookId terminal =>
    exact hs.of_untouched (failIngestion_untouched jobId bookId terminal s _ s' h)
  | setStatus bookId status => exact hs.of_untouched (updateBook_untouched bookId _ s _ s' h)

/-- An effect that keeps the ids of the stored rows handed out. -/
def KeepsIssued (_ : IngestAccess) (w : IngestStore → IngestStore) : Prop :=
  ∀ s, Issued s → Issued (w s)

variable (u : UnicodeData) (config : PipelineConfig)

theorem always_performAccess (a : IngestAccess) :
    (performAccess sha256Hex a).Always KeepsIssued := by
  refine Prog.always_atomically fun s hs => ?_
  cases h : a.tx sha256Hex s with
  | ok r =>
    rw [Prog.commit_of_ok (show a.tx sha256Hex s = .ok (r.1, r.2) from h)]
    exact hs.access sha256Hex a h
  | error e =>
    rw [Prog.commit_of_error h]
    exact hs

theorem always_queryStore {α : Type} (f : IngestStore → α) :
    (queryStore f).Always KeepsIssued :=
  Prog.always_read fun _ hs => hs

theorem always_requestIngestion (bookId bookFileId : Id) (force : Bool) :
    (requestIngestion sha256Hex bookId bookFileId force).Always KeepsIssued := by
  refine Prog.always_bind (always_queryStore _) fun book => ?_
  dsimp only
  split
  · exact Prog.always_throw _
  · refine Prog.always_bind (always_queryStore _) fun bookFile => ?_
    split
    · exact Prog.always_throw _
    · split
      · exact Prog.always_throw _
      · refine Prog.always_bind (always_queryStore _) fun running => ?_
        split
        · exact Prog.always_throw _
        · exact always_performAccess sha256Hex _

theorem always_processIngestionJob (d : ParseDelivery) :
    (processIngestionJob sha256Hex u config d).Always KeepsIssued := by
  refine Prog.always_bind (always_queryStore _) fun job => ?_
  split
  · exact Prog.always_throw _
  · split
    · exact Prog.always_pure _
    · refine Prog.always_bind (always_queryStore _) fun bookFile => ?_
      split
      · exact Prog.always_throw _
      · refine Prog.always_bind (always_performAccess sha256Hex _) fun _ => ?_
        refine Prog.always_tryCatch ?_ fun e => ?_
        · refine Prog.always_bind (Prog.always_read fun _ hs => hs) fun _ => ?_
          split
          · exact Prog.always_throw _
          · refine Prog.always_bind (always_queryStore _) fun version => ?_
            refine Prog.always_bind (Prog.always_read fun _ hs => hs) fun _ => ?_
            exact always_performAccess sha256Hex _
        · refine Prog.always_bind ?_ fun _ => Prog.always_throw _
          rw [handleIngestionFailure]
          split
          · exact Prog.always_pure _
          · exact always_performAccess sha256Hex _

theorem issued_of_reachable {admits : IngestAccess → IngestStore → Prop}
    {c : Config IngestStore IngestAccess IngestFault}
    (hc : (ingestionSystem sha256Hex u config).Reachable admits c) : Issued c.store := by
  refine System.Reachable.invariant_of_always (P := KeepsIssued) (fun i => ?_) hc (fun s hs => ?_)
    fun l w s hP _ hs => hP s hs
  · cases i with
    | completeUpload bookId contentHash => exact always_performAccess sha256Hex _
    | requestIngestion bookId bookFileId force =>
      exact always_requestIngestion sha256Hex bookId bookFileId force
    | deliver d => exact always_processIngestionJob sha256Hex u config d
    | setStatus bookId status => exact always_performAccess sha256Hex _
  · obtain ⟨-, hchapters, hsections, hparagraphs⟩ := hs
    constructor <;> simp [hchapters, hsections, hparagraphs]

/-- A run that succeeds leaves a book that left parsing and whose current version holds the detected
structure, exactly when its text was not stored yet, or when the book was like that before. -/
theorem reingested_iff {c : Config IngestStore IngestAccess IngestFault}
    (hc : (ingestionSystem sha256Hex u config).Reachable anyAccess c) {run : IngestionRun} {v : Id}
    {s' : IngestStore} (h : persistRun sha256Hex run c.store = .ok (v, s')) :
    Reingested run.bookId run.result.chapters s' ↔
      findSameContent run c.store = none ∨
        Reingested run.bookId run.result.chapters c.store := by
  cases hsame : findSameContent run c.store with
  | some existing =>
    obtain ⟨-, jobs, rfl⟩ := persistRun_eq_ok_of_same sha256Hex hsame h
    simp only [reduceCtorEq, false_or]
    exact Iff.rfl
  | none =>
    rw [persistRun_of_new sha256Hex hsame] at h
    have hissued := issued_of_reachable sha256Hex u config hc
    simp [reingested_of_persistVersion sha256Hex hissued h]

/-! ## A Book That Is Ingested Twice -/

def textDigest (text : Text) : Hash :=
  text.foldl (fun h c => 31 * h + c.toNat) 7

def epubBlock (spineIndex : ℕ) (type : BlockType) (text : String) : ExtractedBlock where
  type := type
  text := text.toList
  headingLevel := if type = .heading then some 1 else none
  locator := .epub spineIndex [] 0
  extractionMethod := .epubSpine

def twoChapters : ParsedDocument where
  sourceKind := .epub
  blocks := [epubBlock 0 .heading "Dawn", epubBlock 0 .paragraph "The sun rose.",
    epubBlock 1 .heading "Dusk", epubBlock 1 .paragraph "The sun set."]

/-- An edition with the same text in one chapter. -/
def oneChapter : ParsedDocument where
  sourceKind := .epub
  blocks := [epubBlock 0 .heading "The Day", epubBlock 0 .paragraph "The sun rose.",
    epubBlock 0 .paragraph "The sun set."]

def bookOfTwoFiles : IngestStore where
  books := [{ id := 1, status := .uploaded }]
  bookFiles := [{ id := 2, bookId := 1, contentHash := 20 }, { id := 3, bookId := 1, contentHash := 30 }]
  nextId := 100

def editionRun (jobId bookFileId : Id) (version : ℕ) (document : ParsedDocument) : IngestionRun where
  jobId := jobId
  bookId := 1
  bookFileId := bookFileId
  version := version
  pipelineVersion := 1
  result := runIngestionPipeline textDigest asciiData {} document

/-- A user asks for the ingestion of a file, and a worker makes some accesses for its job. -/
def ingestEdition (n accesses : ℕ) (jobId bookFileId : Id) (document : ParsedDocument) :
    List (Move IngestRequest IngestFault) :=
  .spawn (.requestIngestion 1 bookFileId false) :: List.replicate 4 (.proceed n) ++
    .spawn (.deliver ⟨jobId, bookFileId, .ok document, 0, 3⟩) :: List.replicate accesses (.proceed (n + 1))

/-- What a run leaves: the status of the book, and the titles of the chapters of its version. -/
def outcomeOf (run : IngestionRun) (s : IngestStore) :
    Option (Option BookStatus × List (Option Text)) :=
  match persistRun textDigest run s with
  | .ok (v, s') => some ((findBook run.bookId s').map IngestedBook.status,
      (s'.chapters.filter fun c => decide (c.bookVersionId = v)).map fun c => c.title)
  | .error _ => none

def storesNew (run : IngestionRun) (s : IngestStore) : Bool × Bool :=
  ((findSameContent run s).isNone, (outcomeOf run s).isSome)

/-- The first edition is stored as it was detected. -/
theorem reingested_iff_firstEdition :
    ∃ (c : Config IngestStore IngestAccess IngestFault) (v : Id) (s' : IngestStore),
      (ingestionSystem textDigest asciiData {}).Reachable anyAccess c ∧
        persistRun textDigest (editionRun 100 2 1 twoChapters) c.store = .ok (v, s') ∧
          Reingested 1 (editionRun 100 2 1 twoChapters).result.chapters s' := by
  have hplay : ((ingestionSystem textDigest asciiData {}).playAll anyAccess ⟨bookOfTwoFiles, []⟩
      (ingestEdition 0 6 100 2 twoChapters)).map
        (fun c => storesNew (editionRun 100 2 1 twoChapters) c.store) = some (true, true) := by
    decide +kernel
  obtain ⟨c, hrun, hfirst⟩ :=
    System.exists_run_of_playAll (f := storesNew (editionRun 100 2 1 twoChapters)) hplay
  obtain ⟨hnone, hsome⟩ := Prod.mk.inj hfirst
  have hc : (ingestionSystem textDigest asciiData {}).Reachable anyAccess c :=
    ⟨bookOfTwoFiles, ⟨rfl, rfl, rfl, rfl⟩, hrun⟩
  rw [outcomeOf] at hsome
  split at hsome
  · next v s' hok =>
    exact ⟨c, v, s', hc, hok,
      (reingested_iff textDigest asciiData {} hc hok).mpr (.inl (Option.isNone_iff_eq_none.mp hnone))⟩
  · cases hsome

theorem exists_merged_edition :
    ∃ (c : Config IngestStore IngestAccess IngestFault) (v : Id) (s' : IngestStore),
      (ingestionSystem textDigest asciiData {}).Reachable anyAccess c ∧
        persistRun textDigest (editionRun 106 3 2 oneChapter) c.store = .ok (v, s') ∧
          (findBook 1 s').map IngestedBook.status = some .parsing ∧
            ¬ HoldsStructure v (editionRun 106 3 2 oneChapter).result.chapters s' := by
  have hplay : ((ingestionSystem textDigest asciiData {}).playAll anyAccess ⟨bookOfTwoFiles, []⟩
      (ingestEdition 0 7 100 2 twoChapters ++ ingestEdition 2 6 106 3 oneChapter)).map
        (fun c => outcomeOf (editionRun 106 3 2 oneChapter) c.store) =
      some (some (some .parsing, [some "Dawn".toList, some "Dusk".toList])) := by decide +kernel
  obtain ⟨c, hrun, houtcome⟩ :=
    System.exists_run_of_playAll (f := outcomeOf (editionRun 106 3 2 oneChapter)) hplay
  rw [outcomeOf] at houtcome
  split at houtcome
  · next v s' hok =>
    obtain ⟨hstatus, htitles⟩ := Prod.mk.inj (Option.some.inj houtcome)
    refine ⟨c, v, s', ⟨bookOfTwoFiles, ⟨rfl, rfl, rfl, rfl⟩, hrun⟩, hok, hstatus, fun hholds => ?_⟩
    have hlength := hholds.titles.length_eq
    rw [htitles, List.length_map] at hlength
    exact absurd hlength (by decide +kernel)
  · cases houtcome

/-- A run that succeeds may leave its book parsing, with the chapters of another run. -/
theorem not_forall_reingested :
    ¬ ∀ (sha256Hex : Text → Hash) (u : UnicodeData) (config : PipelineConfig)
        (c : Config IngestStore IngestAccess IngestFault) (run : IngestionRun) (v : Id)
        (s' : IngestStore), (ingestionSystem sha256Hex u config).Reachable anyAccess c →
          persistRun sha256Hex run c.store = .ok (v, s') →
            Reingested run.bookId run.result.chapters s' := by
  intro hall
  obtain ⟨c, v, s', hc, hok, hstatus, -⟩ := exists_merged_edition
  obtain ⟨book, hbook, hparsing, -⟩ := hall _ _ _ c _ v s' hc hok
  have hbook' : findBook 1 s' = some book := hbook
  rw [hbook', Option.map_some, Option.some.injEq] at hstatus
  exact hparsing hstatus

end AudioBook.Structure
