import AudioBook.Concurrent.Interleaving
import AudioBook.Ingestion.Pipeline

/-!
# Ingesting the Versions of a Book

Requests for ingestion, the worker that consumes `parse_book`, and the transaction in which it
stores what a run detected: pages, chapters, sections and paragraphs of a new version, or nothing
when the same text is already stored. Unlike `Ingestion.Persist`, the rows keep the titles, the
sections and the spine ranges, and the status of the book.
-/

namespace AudioBook.Structure

open Relational Concurrent

/-! ## Rows -/

inductive BookStatus
  | created
  | uploaded
  | parsing
  | parsed
  | structured
  | analyzing
  | analyzed
  | casting
  | scripting
  | scripted
  | generating
  | assembling
  | completed
  | failed
  | cancelled
  | needsReview
  deriving DecidableEq, Repr

inductive BookFileStatus
  | admitted
  | rejected
  | quarantined
  deriving DecidableEq, Repr

/-- The statuses of `book_version_status` that ingestion gives. -/
inductive BookVersionStatus
  | ready
  | partialOcr
  | needsReview
  deriving DecidableEq, Repr

/-- A row of `book`. -/
structure IngestedBook where
  id : Id
  status : BookStatus
  needsReview : Bool := false
  currentBookVersionId : Option Id := none

/-- A row of `book_file`. -/
structure BookFile where
  id : Id
  bookId : Id
  contentHash : Hash
  status : BookFileStatus := .admitted

/-- A row of `processing_job` of type `parse_book`. -/
structure ParseJob where
  id : Id
  bookId : Id
  relatedResourceId : Id
  forced : Bool := false
  status : JobStatus := .created
  attemptCount : ℕ := 0
  resultResourceId : Option Id := none
  resultVersion : Option ℕ := none
  errorTerminal : Option Bool := none

/-- A row of `book_version`. -/
structure IngestedVersion where
  id : Id
  bookId : Id
  bookFileId : Id
  version : ℕ
  isCurrent : Bool
  superseded : Bool := false
  supersededByBookVersionId : Option Id := none
  contentHash : Hash
  rawTextContentHash : Hash
  pipelineVersion : ℕ
  status : BookVersionStatus
  textQcOutcome : QcOutcome
  pagesTotal : Option ℕ
  pagesOk : Option ℕ
  pagesNeedsReview : Option ℕ
  degraded : Bool

/-- A row of `parsed_page`. -/
structure ParsedPage extends ExtractedPage where
  id : Id
  bookVersionId : Id

/-- What a row of `chapter` says about the structure of its version. -/
structure ChapterOutline where
  id : Id
  orderIndex : ℕ
  spineStart : ℕ
  spineEnd : ℕ
  title : Option Text
  matterType : MatterType

/-- A row of `chapter`. -/
structure ChapterRow extends ChapterOutline where
  bookId : Id
  bookVersionId : Id
  charCount : ℕ

/-- What a row of `section` says about the structure of its version. -/
structure SectionOutline where
  id : Id
  chapterId : Id
  orderIndex : ℕ
  spineStart : ℕ
  spineEnd : ℕ
  title : Text

/-- A row of `section`. -/
structure SectionRow extends SectionOutline where
  bookId : Id
  bookVersionId : Id

/-- What a row of `paragraph` says about the structure of its version. -/
structure ParagraphOutline where
  chapterId : Id
  sectionId : Option Id
  orderIndex : ℕ
  spinePosition : ℕ
  text : Text

/-- A row of `paragraph`. -/
structure ParagraphRow extends ParagraphOutline where
  id : Id
  bookId : Id
  bookVersionId : Id
  contentHash : Hash
  charCount : ℕ
  sourcePageNumber : Option ℕ
  sourcePageEndNumber : Option ℕ
  sourceLocator : SourceLocator
  rawTextContentHash : Hash
  extractionMethod : ExtractionMethod
  extractionConfidence : Option ℚ
  parsedPageId : Option Id

/-- An outbox message, with what of its payload depends on the run. -/
inductive IngestMessage
  | bookUploaded (bookId bookFileId : Id)
  | parseStarted (bookId bookFileId : Id)
  | bookParsed (bookVersionId : Id) (contentHash : Hash) (pagesOk pagesNeedsReview : ℕ)
      (degraded : Bool)
  | structureReady (bookVersionId : Id) (chapterCount paragraphCount : ℕ)
      (textQcOutcome : QcOutcome)
  | parseFailed (jobId : Id) (retryable : Bool)
  deriving DecidableEq

/-! ## The Store -/

/-- The tables that ingestion reads and writes. -/
structure IngestStore where
  books : List IngestedBook := []
  bookFiles : List BookFile := []
  jobs : List ParseJob := []
  bookVersions : List IngestedVersion := []
  parsedPages : List ParsedPage := []
  chapters : List ChapterRow := []
  sections : List SectionRow := []
  paragraphs : List ParagraphRow := []
  outbox : List IngestMessage := []
  /-- The next id that `generateId` hands out. -/
  nextId : Id := 0

inductive IngestFault
  | violation (v : Violation)
  | recordNotFound
  | notFound
  | bookFileNotAdmitted
  | ingestionAlreadyRunning
  | terminal
  | other
  deriving DecidableEq, Repr

instance : OfViolation IngestFault := ⟨IngestFault.violation⟩

def isTerminalIngestionError (e : IngestFault) : Bool := decide (e = .terminal)

abbrev IngestTx := Transaction IngestStore IngestFault

namespace IngestDb

/-- The table `book`. -/
def book : Table IngestStore IngestedBook where
  rows := IngestStore.books
  setRows rows s := { s with books := rows }
  constraints := [.uniqueWhere fun b => some b.id]

/-- The table `book_file`. -/
def bookFile : Table IngestStore BookFile where
  rows := IngestStore.bookFiles
  setRows rows s := { s with bookFiles := rows }
  constraints := [.uniqueWhere fun file => some file.id]

/-- The table `processing_job`. -/
def processingJob : Table IngestStore ParseJob where
  rows := IngestStore.jobs
  setRows rows s := { s with jobs := rows }
  constraints := [.uniqueWhere fun job => some job.id]

/-- The table `book_version`. -/
def bookVersion : Table IngestStore IngestedVersion where
  rows := IngestStore.bookVersions
  setRows rows s := { s with bookVersions := rows }
  constraints := [
    .uniqueWhere fun v => some v.id,
    .uniqueWhere fun v => some (v.bookId, v.version),
    .uniqueWhere fun v => if v.isCurrent then some v.bookId else none,
    .uniqueWhere fun v =>
      if v.superseded then none else some (v.bookId, v.pipelineVersion, v.contentHash),
    .selfReference IngestedVersion.id IngestedVersion.supersededByBookVersionId]

/-- The table `parsed_page`. -/
def parsedPage : Table IngestStore ParsedPage where
  rows := IngestStore.parsedPages
  setRows rows s := { s with parsedPages := rows }
  constraints := [
    .uniqueWhere fun page => some page.id,
    .uniqueWhere fun page => some (page.bookVersionId, page.pageNumber)]

/-- The table `chapter`. -/
def chapter : Table IngestStore ChapterRow where
  rows := IngestStore.chapters
  setRows rows s := { s with chapters := rows }
  constraints := [
    .uniqueWhere fun c => some c.id,
    .uniqueWhere fun c => some (c.bookVersionId, c.orderIndex)]

/-- The table `section`. -/
def bookSection : Table IngestStore SectionRow where
  rows := IngestStore.sections
  setRows rows s := { s with sections := rows }
  constraints := [.uniqueWhere fun row => some row.id]

/-- The table `paragraph`. -/
def paragraph : Table IngestStore ParagraphRow where
  rows := IngestStore.paragraphs
  setRows rows s := { s with paragraphs := rows }
  constraints := [
    .uniqueWhere fun p => some p.id,
    .uniqueWhere fun p => some (p.bookVersionId, p.spinePosition)]

end IngestDb

/-- Hand out `n` fresh ids. -/
def newIds (n : ℕ) : IngestTx (List Id) := fun s =>
  .ok (List.range' s.nextId n, { s with nextId := s.nextId + n })

/-- Hand out a fresh id. -/
def newId : IngestTx Id := fun s => .ok (s.nextId, { s with nextId := s.nextId + 1 })

def writeOutboxMessage (message : IngestMessage) : IngestTx Unit :=
  modify fun s => { s with outbox := s.outbox ++ [message] }

/-- `if (rows.length > 0) createMany`. -/
def insertAny {ρ : Type} (T : Table IngestStore ρ) (rows : List ρ) : IngestTx Unit :=
  if rows.isEmpty then pure () else T.insertMany rows

def findBook (bookId : Id) (s : IngestStore) : Option IngestedBook :=
  s.books.find? fun book => decide (book.id = bookId)

def findParseJob (jobId : Id) (s : IngestStore) : Option ParseJob :=
  s.jobs.find? fun job => decide (job.id = jobId)

/-- `book.update` by id; the database client raises when the row is not there. -/
def updateBook (bookId : Id) (f : IngestedBook → IngestedBook) : IngestTx Unit := do
  if (findBook bookId (← get)).isNone then throw .recordNotFound
  IngestDb.book.update (fun book => decide (book.id = bookId)) f

/-- `processingJob.update` by id. -/
def updateParseJob (jobId : Id) (f : ParseJob → ParseJob) : IngestTx Unit := do
  if (findParseJob jobId (← get)).isNone then throw .recordNotFound
  IngestDb.processingJob.update (fun job => decide (job.id = jobId)) f

/-! ## The Structure of a Version -/

/-- The `chapter` rows of a version. -/
def versionChapters (bookId bookVersionId : Id) (chapterIds : List Id)
    (chapters : List CanonicalChapter) : List ChapterRow :=
  (chapterIds.zip chapters).map fun (id, chapter) =>
    { id := id
      bookId := bookId
      bookVersionId := bookVersionId
      orderIndex := chapter.orderIndex
      spineStart := chapter.spineStart
      spineEnd := chapter.spineEnd
      title := chapter.title
      matterType := chapter.matterType
      charCount := (chapter.paragraphs.map fun p => utf16Length p.text).sum }

abbrev identified (chapterIds : List Id) (sectionIdsByChapter : List (List Id))
    (chapters : List CanonicalChapter) : List (Id × List Id × CanonicalChapter) :=
  chapterIds.zip (sectionIdsByChapter.zip chapters)

/-- The `section` rows of a version. -/
def versionSections (bookId bookVersionId : Id)
    (chapters : List (Id × List Id × CanonicalChapter)) : List SectionRow :=
  chapters.flatMap fun (chapterId, sectionIds, chapter) =>
    (sectionIds.zip chapter.sections).map fun (id, s) =>
      { id := id
        bookId := bookId
        bookVersionId := bookVersionId
        chapterId := chapterId
        orderIndex := s.orderIndex
        spineStart := s.spineStart
        spineEnd := s.spineEnd
        title := s.title }

/-- The paragraphs of all chapters in order, each with the ids of its chapter and its section. -/
def placedParagraphs (chapters : List (Id × List Id × CanonicalChapter)) :
    List (Id × Option Id × CanonicalParagraph) :=
  chapters.flatMap fun (chapterId, sectionIds, chapter) =>
    chapter.paragraphs.map fun paragraph =>
      (chapterId, paragraph.sectionOrderIndex.bind (sectionIds[·]?), paragraph)

/-- The `paragraph` rows of a version. -/
def versionParagraphs (sha256Hex : Text → Hash) (bookId bookVersionId : Id)
    (parsedPageIdByPage : ℕ → Option Id) (paragraphIds : List Id)
    (paragraphs : List (Id × Option Id × CanonicalParagraph)) : List ParagraphRow :=
  (paragraphIds.zip paragraphs).map fun (id, chapterId, sectionId, paragraph) =>
    { id := id
      bookId := bookId
      bookVersionId := bookVersionId
      chapterId := chapterId
      sectionId := sectionId
      orderIndex := paragraph.orderIndex
      spinePosition := paragraph.spinePosition
      text := paragraph.text
      contentHash := sha256Hex paragraph.text
      charCount := utf16Length paragraph.text
      sourcePageNumber := paragraph.sourcePageNumber
      sourcePageEndNumber := paragraph.sourcePageEndNumber
      sourceLocator := paragraph.sourceLocator
      rawTextContentHash := sha256Hex paragraph.rawText
      extractionMethod := paragraph.extractionMethod
      extractionConfidence := paragraph.extractionConfidence
      parsedPageId := paragraph.sourcePageNumber.bind parsedPageIdByPage }

/-- `persistStructure`. -/
def persistChapters (sha256Hex : Text → Hash) (bookId bookVersionId : Id)
    (chapters : List CanonicalChapter) (parsedPageIdByPage : ℕ → Option Id) : IngestTx Unit := do
  let chapterIds ← newIds chapters.length
  let sectionIdsByChapter ← chapters.mapM fun chapter => newIds chapter.sections.length
  IngestDb.chapter.insertMany (versionChapters bookId bookVersionId chapterIds chapters)
  insertAny IngestDb.bookSection
    (versionSections bookId bookVersionId (identified chapterIds sectionIdsByChapter chapters))
  let placed := placedParagraphs (identified chapterIds sectionIdsByChapter chapters)
  let paragraphIds ← newIds placed.length
  insertAny IngestDb.paragraph
    (versionParagraphs sha256Hex bookId bookVersionId parsedPageIdByPage paragraphIds placed)

/-! ## Storing a Run -/

/-- What the worker knows when it opens its transaction. -/
structure IngestionRun where
  jobId : Id
  bookId : Id
  bookFileId : Id
  /-- `(latest._max.version ?? 0) + 1`, as it was read before. -/
  version : ℕ
  pipelineVersion : ℕ
  result : PipelineResult

/-- `latest`, and one more. -/
def nextVersion (bookId : Id) (s : IngestStore) : ℕ :=
  (((s.bookVersions.filter fun v => decide (v.bookId = bookId)).map
    IngestedVersion.version).max?.getD 0) + 1

def deriveBookVersionStatus (result : PipelineResult) : BookVersionStatus :=
  let pages := result.pages.getD []
  if result.qualityOutcome = .needsReview || pages.any fun page => decide (page.status = .failed)
  then .needsReview
  else if pages.any fun page => decide (page.status = .needsReview) then .partialOcr
  else .ready

def findSameContent (run : IngestionRun) (s : IngestStore) : Option IngestedVersion :=
  s.bookVersions.find? fun v => decide (v.bookId = run.bookId ∧
    v.pipelineVersion = run.pipelineVersion ∧ v.contentHash = run.result.contentHash ∧
    v.superseded = false)

def IngestionRun.newVersion (run : IngestionRun) (bookVersionId : Id) : IngestedVersion :=
  let pagesNeedsReview := run.result.pages.map fun pages =>
    (pages.filter fun page => decide (page.status ≠ .ok)).length
  { id := bookVersionId
    bookId := run.bookId
    bookFileId := run.bookFileId
    version := run.version
    isCurrent := true
    contentHash := run.result.contentHash
    rawTextContentHash := run.result.rawTextContentHash
    pipelineVersion := run.pipelineVersion
    status := deriveBookVersionStatus run.result
    textQcOutcome := run.result.qualityOutcome
    pagesTotal := run.result.pages.map List.length
    pagesOk := run.result.pages.map fun pages =>
      (pages.filter fun page => decide (page.status = .ok)).length
    pagesNeedsReview := pagesNeedsReview
    degraded := decide (0 < pagesNeedsReview.getD 0) || decide (run.result.qualityOutcome ≠ .pass) }

/-- `parsedPageIds`: a page number that occurs twice keeps the last id. -/
def parsedPageIds (pages : List ExtractedPage) (ids : List Id) (pageNumber : ℕ) : Option Id :=
  ((pages.map ExtractedPage.pageNumber).zip ids).reverse.lookup pageNumber

/-- The `parsed_page` rows of a version. -/
def versionPages (bookVersionId : Id) (pageIds : ℕ → Option Id) (pages : List ExtractedPage) :
    List ParsedPage :=
  pages.filterMap fun page =>
    (pageIds page.pageNumber).map fun id => { page with id := id, bookVersionId := bookVersionId }

def succeedWith (jobId bookVersionId : Id) (version : ℕ) : IngestTx Unit :=
  updateParseJob jobId fun job =>
    { job with
      status := .succeeded
      resultResourceId := some bookVersionId
      resultVersion := some version }

/-- The statements for a version that is not stored yet. -/
def persistVersion (sha256Hex : Text → Hash) (run : IngestionRun) : IngestTx Id := do
  let bookVersionId ← newId
  IngestDb.bookVersion.insert (run.newVersion bookVersionId)
  IngestDb.bookVersion.update
    (fun v => decide (v.bookId = run.bookId ∧ v.isCurrent ∧ v.id ≠ bookVersionId))
    fun v =>
      { v with
        isCurrent := false
        superseded := true
        supersededByBookVersionId := some bookVersionId }
  let pages := run.result.pages.getD []
  let ids ← newIds pages.length
  insertAny IngestDb.parsedPage (versionPages bookVersionId (parsedPageIds pages ids) pages)
  persistChapters sha256Hex run.bookId bookVersionId run.result.chapters (parsedPageIds pages ids)
  let needsReview := decide (deriveBookVersionStatus run.result ≠ .ready)
  updateBook run.bookId fun book =>
    { book with
      status := if needsReview then .needsReview else .structured
      needsReview := needsReview
      currentBookVersionId := some bookVersionId }
  succeedWith run.jobId bookVersionId run.version
  let version := run.newVersion bookVersionId
  let paragraphCount := (paragraphTexts run.result.chapters).length
  writeOutboxMessage (.bookParsed bookVersionId version.contentHash
    (version.pagesOk.getD paragraphCount) (version.pagesNeedsReview.getD 0) version.degraded)
  writeOutboxMessage (.structureReady bookVersionId run.result.chapters.length paragraphCount
    run.result.qualityOutcome)
  return bookVersionId

/-- The transaction of `persistIngestionResult`. Where the text is already stored, only the job is
updated. -/
def persistRun (sha256Hex : Text → Hash) (run : IngestionRun) : IngestTx Id := do
  match findSameContent run (← get) with
  | some existing =>
      succeedWith run.jobId existing.id existing.version
      return existing.id
  | none => persistVersion sha256Hex run

/-- The transaction of `handleIngestionFailure`. -/
def failIngestion (jobId : Id) (bookId : Id) (terminal : Bool) : IngestTx Unit := do
  match findParseJob jobId (← get) with
  | none => return
  | some current =>
      if current.status = .failed then return
      else
        updateParseJob jobId fun job =>
          { job with status := .failed, errorTerminal := some terminal }
        updateBook bookId fun book => { book with status := .failed, needsReview := true }
        writeOutboxMessage (.parseFailed jobId (!terminal))

/-! ## The Programs -/

/-- The accesses that ingestion makes. -/
inductive IngestAccess
  | query
  | external
  | createIngestionJob (bookFile : BookFile) (force : Bool)
  | completeUpload (bookId : Id) (contentHash : Hash)
  | markRunning (jobId : Id)
  | persist (run : IngestionRun)
  | fail (jobId bookId : Id) (terminal : Bool)
  | setStatus (bookId : Id) (status : BookStatus)

/-- The transaction of `requestIngestion`: a job, and a book that is being parsed. -/
def createIngestionJob (bookFile : BookFile) (force : Bool) : IngestTx Unit := do
  let jobId ← newId
  IngestDb.processingJob.insert
    { id := jobId, bookId := bookFile.bookId, relatedResourceId := bookFile.id, forced := force }
  updateBook bookFile.bookId fun book => { book with status := .parsing }
  writeOutboxMessage (.parseStarted bookFile.bookId bookFile.id)

/-- The transaction of `completeUpload`: the file is admitted and its first ingestion created. -/
def completeUpload (bookId : Id) (contentHash : Hash) : IngestTx Unit := do
  let bookFileId ← newId
  let jobId ← newId
  IngestDb.bookFile.insert { id := bookFileId, bookId := bookId, contentHash := contentHash }
  IngestDb.processingJob.insert { id := jobId, bookId := bookId, relatedResourceId := bookFileId }
  updateBook bookId fun book => { book with status := .uploaded }
  writeOutboxMessage (.bookUploaded bookId bookFileId)

variable (sha256Hex : Text → Hash)

def IngestAccess.tx : IngestAccess → IngestTx Unit
  | query => pure ()
  | external => pure ()
  | createIngestionJob bookFile force => Structure.createIngestionJob bookFile force
  | completeUpload bookId contentHash => Structure.completeUpload bookId contentHash
  | markRunning jobId => updateParseJob jobId fun job =>
      { job with status := .running, attemptCount := job.attemptCount + 1 }
  | persist run => do
      let _ ← persistRun sha256Hex run
  | fail jobId bookId terminal => failIngestion jobId bookId terminal
  | setStatus bookId status => updateBook bookId fun book => { book with status := status }

abbrev IngestProg := Prog IngestStore IngestAccess IngestFault

def queryStore {α : Type} (f : IngestStore → α) : IngestProg α := Prog.read .query f

def performAccess (a : IngestAccess) : IngestProg Unit := Prog.atomically a (a.tx sha256Hex)

/-- `ACTIVE_JOB_STATUSES`. -/
def isActiveJob (job : ParseJob) : Bool :=
  decide (job.status ∈ [.created, .queued, .running, .retrying, .blocked])

def requestIngestion (bookId bookFileId : Id) (force : Bool) : IngestProg Unit := do
  if (← queryStore (findBook bookId)).isNone then throw .notFound
  match ← queryStore fun s =>
      s.bookFiles.find? fun file => decide (file.id = bookFileId ∧ file.bookId = bookId) with
  | none => throw .notFound
  | some bookFile =>
      if bookFile.status ≠ .admitted then throw .bookFileNotAdmitted
      else
        let running ← queryStore fun s =>
          s.jobs.any fun job => decide (job.relatedResourceId = bookFile.id) && isActiveJob job
        if running && !force then throw .ingestionAlreadyRunning
        else performAccess sha256Hex (.createIngestionJob bookFile force)

/-- One delivery of a `parse_book` message. -/
structure ParseDelivery where
  jobId : Id
  bookFileId : Id
  parsed : Except IngestFault ParsedDocument
  attemptsMade : ℕ
  maxAttempts : ℕ

def handleIngestionFailure (job : ParseJob) (d : ParseDelivery) (e : IngestFault) :
    IngestProg Unit := do
  let terminal := isTerminalIngestionError e
  if !terminal && decide (d.attemptsMade + 1 < d.maxAttempts) then return
  else performAccess sha256Hex (.fail job.id job.bookId terminal)

/-- Parse the file and store the result. The progress that is noted on the job in between is left
out. -/
def ingest (u : UnicodeData) (config : PipelineConfig) (job : ParseJob) (bookFile : BookFile)
    (d : ParseDelivery) : IngestProg Unit := do
  -- the file is downloaded
  Prog.read .external fun _ => ()
  match d.parsed with
  | .error e => throw e
  | .ok document =>
      let result := runIngestionPipeline sha256Hex u config document
      let version ← queryStore (nextVersion job.bookId)
      -- the canonical text is put into the object storage
      Prog.read .external fun _ => ()
      performAccess sha256Hex (.persist
        { jobId := job.id
          bookId := job.bookId
          bookFileId := bookFile.id
          version := version
          pipelineVersion := config.pipelineVersion
          result := result })

def processIngestionJob (u : UnicodeData) (config : PipelineConfig) (d : ParseDelivery) :
    IngestProg Unit := do
  match ← queryStore (findParseJob d.jobId) with
  | none => throw .other
  | some job =>
      if job.status = .succeeded ∨ job.status = .failed then return
      else
        match ← queryStore fun s =>
            s.bookFiles.find? fun file => decide (file.id = d.bookFileId) with
        | none => throw .other
        | some bookFile => do
            performAccess sha256Hex (.markRunning job.id)
            tryCatch (ingest sha256Hex u config job bookFile d) fun e => do
              handleIngestionFailure sha256Hex job d e
              throw e

inductive IngestRequest
  | completeUpload (bookId : Id) (contentHash : Hash)
  | requestIngestion (bookId bookFileId : Id) (force : Bool)
  | deliver (d : ParseDelivery)
  /-- Analysis, direction, synthesis or assembly of the book starts, ends or fails. -/
  | setStatus (bookId : Id) (status : BookStatus)

/-- The ingestion system. It starts with books that nothing was ingested for. -/
def ingestionSystem (u : UnicodeData) (config : PipelineConfig) :
    System IngestStore IngestRequest IngestAccess IngestFault where
  init s := s.bookVersions = [] ∧ s.chapters = [] ∧ s.sections = [] ∧ s.paragraphs = []
  enabled _ _ := True
  program
    | .completeUpload bookId contentHash => performAccess sha256Hex (.completeUpload bookId contentHash)
    | .requestIngestion bookId bookFileId force =>
        Structure.requestIngestion sha256Hex bookId bookFileId force
    | .deliver d => processIngestionJob sha256Hex u config d
    | .setStatus bookId status => performAccess sha256Hex (.setStatus bookId status)

instance (u : UnicodeData) (config : PipelineConfig) (i : IngestRequest) (s : IngestStore) :
    Decidable ((ingestionSystem sha256Hex u config).enabled i s) :=
  isTrue trivial

end AudioBook.Structure
