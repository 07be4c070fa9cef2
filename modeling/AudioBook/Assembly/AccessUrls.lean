import AudioBook.Schema.Rows
import Mathlib.Data.List.MinMax
import Mathlib.Data.List.Nodup
import Mathlib.Logic.Function.Basic

/-!
# Access URLs

`createAudiobookAccessUrl` signs a URL for an audiobook in a format, and
`maybeEnqueueAssembleAudiobook` skips the assembly of formats that are there. What they give out and
rely on was stored by the workers: the master of an audiobook and its row, the renditions and theirs.
An upload and the row for it are one step here; the book is one of the caller's.

Main results:

- `stored_of_reachable`: every row describes the object at its key.
- `delivers_iff`: which URLs and which formats of the skip check are right.
-/

namespace AudioBook.AccessUrls

/-! ## Objects and Rows -/

inductive Encoding
  | wav
  | m4b
  | m4a
  | mp3
  deriving DecidableEq

/-- The `contentType` that an object is put with. -/
def Encoding.contentType : Encoding → String
  | wav => "audio/wav"
  | m4b | m4a => "audio/mp4"
  | mp3 => "audio/mpeg"

def encodingOf : DeliveryFormat → Encoding
  | .m4b => .m4b
  | .m4a => .m4a
  | .mp3PerChapter => .mp3

/-- An object with audio: how it is encoded, the chapters that are heard in it, and its bytes. -/
structure StoredObject where
  encoding : Encoding
  chapters : List Id
  sizeBytes : ℕ
  contentHash : Hash
  deriving DecidableEq

/-- The keys that `buildStorageKey` builds for an audiobook, and the empty one. -/
inductive StorageKey
  | empty
  | master (bookId : Id) (version : ℕ)
  | delivery (bookId : Id) (version : ℕ) (format : DeliveryFormat)
  | chapterMp3 (bookId : Id) (version index : ℕ)
  deriving DecidableEq

structure StorageReference where
  storageKey : StorageKey
  sizeBytes : Option ℕ
  contentHash : Hash
  deriving DecidableEq

/-- `audiobook`, with what describes its object. -/
structure DeliveredAudiobook extends Audiobook where
  durationMs : ℕ
  object : StorageReference

/-- `audiobook_rendition`, with what describes its object. -/
structure DeliveredRendition extends AudiobookRendition where
  durationMs : ℕ
  object : StorageReference

def DeliveredAudiobook.chapterIds (a : DeliveredAudiobook) : List Id :=
  a.chapters.map AudiobookChapter.chapterId

/-- The rows and the object storage. -/
structure DeliveryStore where
  audiobooks : List DeliveredAudiobook
  renditions : List DeliveredRendition
  objects : StorageKey → Option StoredObject

def DeliveryStore.empty : DeliveryStore where
  audiobooks := []
  renditions := []
  objects _ := none

/-! ## The API -/

def formatName : DeliveryFormat → String
  | .m4b => "M4B"
  | .m4a => "M4A"
  | .mp3PerChapter => "MP3_PER_CHAPTER"

def statusName : AudiobookStatus → String
  | .draftMetadata => "DRAFT_METADATA"
  | .assembling => "ASSEMBLING"
  | .ready => "READY"
  | .failed => "FAILED"
  | .superseded => "SUPERSEDED"

def containerFormatContentType : DeliveryFormat → String
  | .m4b | .m4a => "audio/mp4"
  | .mp3PerChapter => "audio/mpeg"

structure CreateAccessUrlBody where
  disposition : Option String := none
  format : Option String := none
  expiresInSeconds : Option ℕ := none

/-- An `access_url`; the URL is the one of a key. -/
structure AccessUrl where
  key : StorageKey
  expiresInSeconds : ℕ
  disposition : String
  format : DeliveryFormat
  contentType : String
  durationMs : ℕ
  sizeBytes : Option ℕ
  contentHash : Hash
  deriving DecidableEq

/-- What a request is answered with instead of a URL. -/
inductive AccessError
  | notFound (message : String)
  | conflict (code message : String)
  /-- The query has a value that the format column does not have. -/
  | invalidValue
  deriving DecidableEq

def accessUrl (body : CreateAccessUrlBody) (format : DeliveryFormat) (durationMs : ℕ)
    (object : StorageReference) : AccessUrl where
  key := object.storageKey
  expiresInSeconds := body.expiresInSeconds.getD 300
  disposition := body.disposition.getD "INLINE"
  format := format
  contentType := containerFormatContentType format
  durationMs := durationMs
  sizeBytes := object.sizeBytes.filter fun size => decide (size ≠ 0)
  contentHash := object.contentHash

/-- A `READY` rendition of an audiobook in a format. -/
def IsReady (audiobookId : Id) (format : DeliveryFormat) (r : DeliveredRendition) : Prop :=
  r.audiobookId = audiobookId ∧ r.format = format ∧ r.status = .ready

instance (audiobookId : Id) (format : DeliveryFormat) (r : DeliveredRendition) :
    Decidable (IsReady audiobookId format r) := inferInstanceAs (Decidable (_ ∧ _ ∧ _))

/-- The answer about a format that is not the container format. -/
def renditionUrl (s : DeliveryStore) (a : DeliveredAudiobook) (body : CreateAccessUrlBody)
    (name : String) : Except AccessError AccessUrl :=
  match [DeliveryFormat.m4b, .m4a, .mp3PerChapter].find? fun f => decide (formatName f = name) with
  | none => .error .invalidValue
  | some format =>
      match s.renditions.find? fun r => decide (IsReady a.id format r) with
      | none => .error (.conflict "FORMAT_NOT_AVAILABLE"
          ("Delivery format " ++ name ++ " is not available for this audiobook."))
      | some rendition =>
          .ok (accessUrl body rendition.format rendition.durationMs rendition.object)

def audiobookUrl (s : DeliveryStore) (a : DeliveredAudiobook) (body : CreateAccessUrlBody) :
    Except AccessError AccessUrl :=
  match body.format with
  | none => .ok (accessUrl body a.containerFormat a.durationMs a.object)
  | some name =>
      if name = "" ∨ name = formatName a.containerFormat then
        .ok (accessUrl body a.containerFormat a.durationMs a.object)
      else renditionUrl s a body name

def createAudiobookAccessUrl (s : DeliveryStore) (bookId audiobookId : Id)
    (body : CreateAccessUrlBody) : Except AccessError AccessUrl :=
  match s.audiobooks.find? fun a => decide (a.id = audiobookId ∧ a.bookId = bookId) with
  | none => .error (.notFound "Audiobook not found.")
  | some a =>
      if a.status ≠ .ready then
        .error (.conflict "ARTIFACT_NOT_READY"
          ("Audiobook is " ++ statusName a.status ++ "; bytes are not available."))
      else audiobookUrl s a body

/-- `readyFormats` of `maybeEnqueueAssembleAudiobook`. -/
def readyFormats (s : DeliveryStore) (existing : DeliveredAudiobook) : List DeliveryFormat :=
  existing.containerFormat ::
    ((s.renditions.filter fun r =>
      decide (r.audiobookId = existing.id ∧ r.status = .ready)).map fun r => r.format)

/-! ## The Workers -/

/-- What a tool made: a file that has bytes. -/
structure Output where
  durationMs : ℕ
  sizeBytes : ℕ
  contentHash : Hash
  sizeBytes_pos : 0 < sizeBytes

/-- An audiobook that is assembled of the chapters of a version, each of them once. -/
structure NewAudiobook where
  audiobookId : Id
  bookId : Id
  bookVersionId : Id
  jobId : Id
  primaryFormat : DeliveryFormat
  chapterManifestHash : Hash
  chapters : List AudiobookChapter
  chapters_nodup : (chapters.map AudiobookChapter.chapterId).Nodup

def Output.reference (output : Output) (key : StorageKey) : StorageReference where
  storageKey := key
  sizeBytes := some output.sizeBytes
  contentHash := output.contentHash

def Output.stored (output : Output) (encoding : Encoding) (chapters : List Id) : StoredObject where
  encoding := encoding
  chapters := chapters
  sizeBytes := output.sizeBytes
  contentHash := output.contentHash

namespace DeliveryStore

/-- `nextVersion` of an audiobook. -/
def nextVersion (s : DeliveryStore) (bookId : Id) : ℕ :=
  ((s.audiobooks.filter fun a => decide (a.bookId = bookId)).map fun a => a.version).foldr max 0 + 1

/-- `assembleAudiobook`: the master is uploaded, and the audiobook has the primary format. -/
def assembleAudiobook (s : DeliveryStore) (new : NewAudiobook) (output : Output) :
    Option DeliveryStore :=
  if s.audiobooks.any fun a => decide (a.id = new.audiobookId) then none
  else
    let version := s.nextVersion new.bookId
    let key := StorageKey.master new.bookId version
    let row : DeliveredAudiobook :=
      { id := new.audiobookId
        bookId := new.bookId
        bookVersionId := new.bookVersionId
        version := version
        isCurrent := true
        status := .assembling
        containerFormat := new.primaryFormat
        chapterCount := new.chapters.length
        chapterManifestHash := new.chapterManifestHash
        jobId := some new.jobId
        chapters := new.chapters
        durationMs := output.durationMs
        object := output.reference key }
    some { s with
      audiobooks := (s.audiobooks.map fun a =>
        if a.bookId = new.bookId then { a with isCurrent := false } else a) ++ [row]
      objects := Function.update s.objects key
        (some (output.stored .wav (new.chapters.map AudiobookChapter.chapterId))) }

/-- The rendition is of the same audiobook, format and chapter. -/
def SameTarget (r r' : DeliveredRendition) : Prop :=
  r'.audiobookId = r.audiobookId ∧ r'.format = r.format ∧ r'.chapterId = r.chapterId

instance (r r' : DeliveredRendition) : Decidable (SameTarget r r') :=
  inferInstanceAs (Decidable (_ ∧ _ ∧ _))

/-- `upsertRendition`, after the upload. -/
def upsertRendition (s : DeliveryStore) (r : DeliveredRendition) (object : StoredObject) :
    DeliveryStore :=
  { s with
    renditions :=
      if s.renditions.any fun old => decide (SameTarget r old) then
        s.renditions.map fun old => if SameTarget r old then { r with id := old.id } else old
      else s.renditions ++ [r]
    objects := Function.update s.objects r.object.storageKey (some object) }

def rendition (renditionId : Id) (a : DeliveredAudiobook) (format : DeliveryFormat)
    (chapterId : Option Id) (key : StorageKey) (output : Output) : DeliveredRendition where
  id := renditionId
  audiobookId := a.id
  format := format
  chapterId := chapterId
  status := .ready
  matchesCurrentPolicy := true
  durationMs := output.durationMs
  object := output.reference key

/-- `encodeSingleFileFormat`. -/
def encodeSingleFile (s : DeliveryStore) (renditionId audiobookId : Id) (format : DeliveryFormat)
    (output : Output) : Option DeliveryStore :=
  match s.audiobooks.find? fun a => decide (a.id = audiobookId) with
  | none => none
  | some a =>
      if format = .mp3PerChapter then none
      else
        let key := StorageKey.delivery a.bookId a.version format
        some (s.upsertRendition (rendition renditionId a format none key output)
          (output.stored (encodingOf format) a.chapterIds))

/-- One round of `encodeMp3PerChapter`. -/
def encodeMp3Chapter (s : DeliveryStore) (renditionId audiobookId : Id) (index : ℕ)
    (output : Output) : Option DeliveryStore :=
  match s.audiobooks.find? fun a => decide (a.id = audiobookId) with
  | none => none
  | some a =>
      match a.chapterIds[index]? with
      | none => none
      | some chapterId =>
          let key := StorageKey.chapterMp3 a.bookId a.version index
          some (s.upsertRendition
            (rendition renditionId a .mp3PerChapter (some chapterId) key output)
            (output.stored .mp3 [chapterId]))

/-- The rendition that `handleEncodeFailure` leaves where there was none. -/
def failedRendition (renditionId audiobookId : Id) (format : DeliveryFormat) :
    DeliveredRendition where
  id := renditionId
  audiobookId := audiobookId
  format := format
  chapterId := none
  status := .failed
  matchesCurrentPolicy := false
  durationMs := 0
  object := { storageKey := .empty, sizeBytes := none, contentHash := 0 }

/-- `handleEncodeFailure`. A rendition of MP3 files without a chapter is refused by the schema. -/
def failEncode (s : DeliveryStore) (renditionId audiobookId : Id) (format : DeliveryFormat) :
    Option DeliveryStore :=
  if format = .mp3PerChapter then none
  else
    let failed := failedRendition renditionId audiobookId format
    some { s with
      renditions :=
        if s.renditions.any fun old => decide (SameTarget failed old) then
          s.renditions.map fun old =>
            if SameTarget failed old then { old with status := .failed } else old
        else s.renditions ++ [failed]
      audiobooks := s.audiobooks.map fun a =>
        if a.id = audiobookId ∧ a.status ≠ .ready then { a with status := .failed } else a }

def isFormatFullyReady (s : DeliveryStore) (a : DeliveredAudiobook) (format : DeliveryFormat) :
    Bool :=
  let ready := s.renditions.filter fun r => decide (IsReady a.id format r)
  if format = .mp3PerChapter then
    let chapters := ready.filter fun r => r.chapterId.isSome
    decide (chapters.length = a.chapterCount) && chapters.all fun r => r.matchesCurrentPolicy
  else
    (ready.find? fun r => r.chapterId.isNone).any fun r => r.matchesCurrentPolicy

/-- `maybePublishAudiobook`, for the formats that were requested. -/
def publish (s : DeliveryStore) (audiobookId : Id) (requestedFormats : List DeliveryFormat) :
    Option DeliveryStore :=
  match s.audiobooks.find? fun a => decide (a.id = audiobookId) with
  | none => none
  | some a =>
      if requestedFormats ≠ [] ∧ requestedFormats.all (s.isFormatFullyReady a) then
        some { s with audiobooks := s.audiobooks.map fun b =>
          if b.id = audiobookId then { b with status := .ready } else b }
      else none

inductive Action
  | assembleAudiobook (new : NewAudiobook) (output : Output)
  | encodeSingleFile (renditionId audiobookId : Id) (format : DeliveryFormat) (output : Output)
  | encodeMp3Chapter (renditionId audiobookId : Id) (index : ℕ) (output : Output)
  | failEncode (renditionId audiobookId : Id) (format : DeliveryFormat)
  | publish (audiobookId : Id) (requestedFormats : List DeliveryFormat)

def step (s : DeliveryStore) : Action → Option DeliveryStore
  | .assembleAudiobook new output => s.assembleAudiobook new output
  | .encodeSingleFile renditionId audiobookId format output =>
      s.encodeSingleFile renditionId audiobookId format output
  | .encodeMp3Chapter renditionId audiobookId index output =>
      s.encodeMp3Chapter renditionId audiobookId index output
  | .failEncode renditionId audiobookId format => s.failEncode renditionId audiobookId format
  | .publish audiobookId requestedFormats => s.publish audiobookId requestedFormats

inductive Reachable : DeliveryStore → Prop
  | empty : Reachable .empty
  | step {s s' : DeliveryStore} {action : Action} : Reachable s → s.step action = some s' →
      Reachable s'

end DeliveryStore

/-! ## Rows and Their Objects -/

/-- What a row says about its object is so, and the object is one of some chapters. -/
def Describes (objects : StorageKey → Option StoredObject) (reference : StorageReference)
    (encoding : Encoding) (chapters : List Id) : Prop :=
  ∃ sizeBytes, 0 < sizeBytes ∧ reference.sizeBytes = some sizeBytes ∧
    objects reference.storageKey = some
      { encoding := encoding
        chapters := chapters
        sizeBytes := sizeBytes
        contentHash := reference.contentHash }

/-- What does not change about an audiobook. -/
structure Facts where
  id : Id
  bookId : Id
  version : ℕ
  chapterIds : List Id
  object : StorageReference

def DeliveredAudiobook.facts (a : DeliveredAudiobook) : Facts where
  id := a.id
  bookId := a.bookId
  version := a.version
  chapterIds := a.chapterIds
  object := a.object

/-- A rendition is of the whole audiobook, or of one of its chapters. -/
inductive RenditionOf (objects : StorageKey → Option StoredObject) (a : Facts)
    (r : DeliveredRendition) : Prop
  | file (format : r.format ≠ .mp3PerChapter) (chapterId : r.chapterId = none)
      (key : r.object.storageKey = .delivery a.bookId a.version r.format)
      (describes : Describes objects r.object (encodingOf r.format) a.chapterIds)
  | chapter (index : ℕ) (chapterId : Id) (format : r.format = .mp3PerChapter)
      (ofChapter : r.chapterId = some chapterId) (isChapter : a.chapterIds[index]? = some chapterId)
      (key : r.object.storageKey = .chapterMp3 a.bookId a.version index)
      (describes : Describes objects r.object .mp3 [chapterId])

/-- The rows and the objects fit. -/
structure Stored (audiobooks : List Facts) (renditions : List DeliveredRendition)
    (objects : StorageKey → Option StoredObject) : Prop where
  ids : (audiobooks.map Facts.id).Nodup
  versions : (audiobooks.map fun a => (a.bookId, a.version)).Nodup
  chapters : ∀ a ∈ audiobooks, a.chapterIds.Nodup
  masters : ∀ a ∈ audiobooks, a.object.storageKey = .master a.bookId a.version ∧
    Describes objects a.object .wav a.chapterIds
  renditions : ∀ r ∈ renditions, r.status = .ready →
    ∃ a ∈ audiobooks, a.id = r.audiobookId ∧ RenditionOf objects a r

section stored

variable {objects : StorageKey → Option StoredObject} {audiobooks : List Facts}
  {renditions : List DeliveredRendition}

theorem Describes.update {reference : StorageReference} {encoding : Encoding} {chapters : List Id}
    (h : Describes objects reference encoding chapters) {key : StorageKey}
    (hne : reference.storageKey ≠ key) (object : StoredObject) :
    Describes (Function.update objects key (some object)) reference encoding chapters := by
  obtain ⟨sizeBytes, hpos, hsize, hobject⟩ := h
  exact ⟨sizeBytes, hpos, hsize, (Function.update_of_ne hne _ _).trans hobject⟩

theorem describes_reference (output : Output) (key : StorageKey) (encoding : Encoding)
    (chapters : List Id) :
    Describes (Function.update objects key (some (output.stored encoding chapters)))
      (output.reference key) encoding chapters :=
  ⟨output.sizeBytes, output.sizeBytes_pos, rfl, Function.update_self _ _ _⟩

variable {r : DeliveredRendition} {a : Facts}

theorem RenditionOf.update (h : RenditionOf objects a r) {key : StorageKey}
    (hne : r.object.storageKey ≠ key) (object : StoredObject) :
    RenditionOf (Function.update objects key (some object)) a r := by
  cases h with
  | file format chapterId hkey describes =>
    exact .file format chapterId hkey (describes.update hne object)
  | chapter index chapterId format ofChapter isChapter hkey describes =>
    exact .chapter index chapterId format ofChapter isChapter hkey (describes.update hne object)

theorem RenditionOf.withId (h : RenditionOf objects a r) (id : Id) :
    RenditionOf objects a { r with id := id } := by
  cases h with
  | file format chapterId hkey describes => exact .file format chapterId hkey describes
  | chapter index chapterId format ofChapter isChapter hkey describes =>
    exact .chapter index chapterId format ofChapter isChapter hkey describes

theorem RenditionOf.key_ne_master (h : RenditionOf objects a r) (bookId version : ℕ) :
    r.object.storageKey ≠ .master bookId version := by
  cases h with
  | file _ _ hkey => rw [hkey]; exact StorageKey.noConfusion
  | chapter _ _ _ _ _ hkey => rw [hkey]; exact StorageKey.noConfusion

theorem Stored.eq_of_version (h : Stored audiobooks renditions objects) {b : Facts}
    (ha : a ∈ audiobooks) (hb : b ∈ audiobooks) (hbook : a.bookId = b.bookId)
    (hversion : a.version = b.version) : a = b :=
  List.inj_on_of_nodup_map h.versions ha hb (Prod.ext hbook hversion)

theorem Stored.eq_of_id (h : Stored audiobooks renditions objects) {b : Facts} (ha : a ∈ audiobooks)
    (hb : b ∈ audiobooks) (hid : a.id = b.id) : a = b :=
  List.inj_on_of_nodup_map h.ids ha hb hid

theorem Stored.sameTarget (h : Stored audiobooks renditions objects)
    {objects' : StorageKey → Option StoredObject} {b : Facts} (ha : a ∈ audiobooks)
    (hb : b ∈ audiobooks) {r' : DeliveredRendition} (hr : RenditionOf objects' a r)
    (hr' : RenditionOf objects b r') (haid : a.id = r.audiobookId) (hbid : b.id = r'.audiobookId)
    (hkey : r'.object.storageKey = r.object.storageKey) : DeliveryStore.SameTarget r r' := by
  cases hr with
  | file format chapterId key =>
    cases hr' with
    | file format' chapterId' key' =>
      rw [key, key'] at hkey
      obtain ⟨hbook, hversion, hformat⟩ := StorageKey.delivery.inj hkey
      obtain rfl := h.eq_of_version hb ha hbook hversion
      exact ⟨hbid.symm.trans haid, hformat, chapterId'.trans chapterId.symm⟩
    | chapter index' chapterId' format' ofChapter' isChapter' key' =>
      rw [key, key'] at hkey
      cases hkey
  | chapter index chapterId format ofChapter isChapter key =>
    cases hr' with
    | file format' chapterId' key' =>
      rw [key, key'] at hkey
      cases hkey
    | chapter index' chapterId' format' ofChapter' isChapter' key' =>
      rw [key, key'] at hkey
      obtain ⟨hbook, hversion, rfl⟩ := StorageKey.chapterMp3.inj hkey
      obtain rfl := h.eq_of_version hb ha hbook hversion
      have hchapter := Option.some.inj (isChapter'.symm.trans isChapter)
      exact ⟨hbid.symm.trans haid, format'.trans format.symm,
        ofChapter'.trans (hchapter ▸ ofChapter.symm)⟩

end stored

/-! ## What the Workers Leave -/

namespace DeliveryStore

variable {s s' : DeliveryStore}

/-- The rows of a store fit its objects. -/
def Fits (s : DeliveryStore) : Prop :=
  Stored (s.audiobooks.map DeliveredAudiobook.facts) s.renditions s.objects

theorem map_facts_of_facts_eq {f : DeliveredAudiobook → DeliveredAudiobook}
    (hf : ∀ a, (f a).facts = a.facts) (audiobooks : List DeliveredAudiobook) :
    (audiobooks.map f).map DeliveredAudiobook.facts = audiobooks.map DeliveredAudiobook.facts := by
  rw [List.map_map]
  exact List.map_congr_left fun a _ => hf a

theorem Fits.of_facts (h : s.Fits) {audiobooks : List DeliveredAudiobook}
    {renditions : List DeliveredRendition}
    (hfacts : audiobooks.map DeliveredAudiobook.facts = s.audiobooks.map DeliveredAudiobook.facts)
    (hrenditions : ∀ r ∈ renditions, r.status = .ready → r ∈ s.renditions) :
    Fits { audiobooks := audiobooks, renditions := renditions, objects := s.objects } := by
  rw [Fits, hfacts]
  exact { h with
    renditions := fun r hr hready => h.renditions r (hrenditions r hr hready) hready }

theorem mem_upsertRendition {r r' : DeliveredRendition} {object : StoredObject}
    (h : r' ∈ (s.upsertRendition r object).renditions) :
    r' ∈ s.renditions ∧ ¬ SameTarget r r' ∨ ∃ id, r' = { r with id := id } := by
  unfold upsertRendition at h
  simp only at h
  split_ifs at h with hany
  · obtain ⟨old, hold, rfl⟩ := List.mem_map.mp h
    split_ifs with hsame
    · exact .inr ⟨old.id, rfl⟩
    · exact .inl ⟨hold, hsame⟩
  · rcases List.mem_append.mp h with hold | hnew
    · refine .inl ⟨hold, fun hsame => hany ?_⟩
      exact List.any_eq_true.mpr ⟨r', hold, decide_eq_true hsame⟩
    · exact .inr ⟨r.id, List.mem_singleton.mp hnew⟩

variable {a : DeliveredAudiobook}

theorem Fits.upsertRendition (h : s.Fits) (ha : a ∈ s.audiobooks) {r : DeliveredRendition}
    (hid : a.id = r.audiobookId) {object : StoredObject}
    (hr : RenditionOf (Function.update s.objects r.object.storageKey (some object)) a.facts r) :
    (s.upsertRendition r object).Fits := by
  have hfacts : a.facts ∈ s.audiobooks.map DeliveredAudiobook.facts := List.mem_map_of_mem ha
  exact {
    ids := h.ids
    versions := h.versions
    chapters := h.chapters
    masters := by
      intro b hb
      obtain ⟨hkey, hdescribes⟩ := h.masters b hb
      refine ⟨hkey, hdescribes.update ?_ object⟩
      rw [hkey]
      exact (hr.key_ne_master _ _).symm
    renditions := by
      intro r' hr' hready
      rcases mem_upsertRendition hr' with ⟨hold, hother⟩ | ⟨id, rfl⟩
      -- what is stored at the key is of the target, and was replaced
      · obtain ⟨b, hb, hbid, hof⟩ := h.renditions r' hold hready
        refine ⟨b, hb, hbid, hof.update (fun hkey => hother ?_) object⟩
        exact h.sameTarget hfacts hb hr hof hid hbid hkey
      · exact ⟨a.facts, hfacts, hid, hr.withId id⟩ }

variable {audiobookId : Id}

theorem mem_of_find? (h : (s.audiobooks.find? fun a => decide (a.id = audiobookId)) = some a) :
    a ∈ s.audiobooks ∧ a.id = audiobookId :=
  ⟨List.mem_of_find?_eq_some h, by simpa using List.find?_some h⟩

theorem Fits.encodeSingleFile (h : s.Fits) {renditionId : Id} {format : DeliveryFormat}
    {output : Output} (hstep : s.encodeSingleFile renditionId audiobookId format output = some s') :
    s'.Fits := by
  unfold DeliveryStore.encodeSingleFile at hstep
  split at hstep
  next => cases hstep
  next a hfind =>
    split_ifs at hstep with hformat
    obtain rfl := Option.some.inj hstep
    exact h.upsertRendition (mem_of_find? hfind).1 rfl
      (.file hformat rfl rfl (describes_reference output _ _ _))

theorem Fits.encodeMp3Chapter (h : s.Fits) {renditionId : Id} {index : ℕ} {output : Output}
    (hstep : s.encodeMp3Chapter renditionId audiobookId index output = some s') : s'.Fits := by
  unfold DeliveryStore.encodeMp3Chapter at hstep
  split at hstep
  next => cases hstep
  next a hfind =>
    split at hstep
    next => cases hstep
    next chapterId hchapter =>
      obtain rfl := Option.some.inj hstep
      exact h.upsertRendition (mem_of_find? hfind).1 rfl
        (.chapter index chapterId rfl rfl hchapter rfl (describes_reference output _ _ _))

theorem Fits.failEncode (h : s.Fits) {renditionId : Id} {format : DeliveryFormat}
    (hstep : s.failEncode renditionId audiobookId format = some s') : s'.Fits := by
  unfold DeliveryStore.failEncode at hstep
  split_ifs at hstep with hformat
  obtain rfl := Option.some.inj hstep
  refine h.of_facts (map_facts_of_facts_eq (fun a => ?facts) _) ?renditions
  case facts => split_ifs <;> rfl
  case renditions =>
    intro r hr hready
    split_ifs at hr
    · obtain ⟨old, hold, rfl⟩ := List.mem_map.mp hr
      -- the rendition that failed is not `READY`, and so no row that has to fit
      by_cases hsame : SameTarget (failedRendition renditionId audiobookId format) old
      · rw [if_pos hsame] at hready
        cases hready
      · rwa [if_neg hsame]
    · rcases List.mem_append.mp hr with hold | hnew
      · exact hold
      · rw [List.mem_singleton.mp hnew] at hready
        cases hready

theorem Fits.publish (h : s.Fits) {requestedFormats : List DeliveryFormat}
    (hstep : s.publish audiobookId requestedFormats = some s') : s'.Fits := by
  unfold DeliveryStore.publish at hstep
  split at hstep
  next => cases hstep
  next a hfind =>
    split_ifs at hstep
    obtain rfl := Option.some.inj hstep
    refine h.of_facts (map_facts_of_facts_eq (fun a => ?_) _) fun r hr _ => hr
    split_ifs <;> rfl

theorem lt_nextVersion (ha : a ∈ s.audiobooks) : a.version < s.nextVersion a.bookId := by
  have hmem : a.version ∈ (s.audiobooks.filter fun b => decide (b.bookId = a.bookId)).map
      fun b => b.version :=
    List.mem_map.mpr ⟨a, List.mem_filter.mpr ⟨ha, decide_eq_true rfl⟩, rfl⟩
  exact Nat.lt_succ_of_le (List.le_max_of_le' 0 hmem le_rfl)

theorem nodup_map_append_singleton {α β : Type} {f : α → β} {as : List α} {a : α}
    (h : (as.map f).Nodup) (hnew : ∀ b ∈ as, f b ≠ f a) : ((as ++ [a]).map f).Nodup := by
  rw [List.map_append, List.nodup_append]
  refine ⟨h, List.nodup_singleton _, ?_⟩
  intro _ hold _ ha
  obtain ⟨b, hb, rfl⟩ := List.mem_map.mp hold
  rw [List.map_singleton, List.mem_singleton] at ha
  exact ha ▸ hnew b hb

theorem Fits.assembleAudiobook (h : s.Fits) {new : NewAudiobook} {output : Output}
    (hstep : s.assembleAudiobook new output = some s') : s'.Fits := by
  unfold DeliveryStore.assembleAudiobook at hstep
  split_ifs at hstep with hany
  obtain rfl := Option.some.inj hstep
  -- a version of a book is new, so its master is not stored over another one
  have hversion : ∀ b ∈ s.audiobooks.map DeliveredAudiobook.facts,
      b.bookId = new.bookId → b.version < s.nextVersion new.bookId := by
    intro b hb hbook
    obtain ⟨a, ha, rfl⟩ := List.mem_map.mp hb
    exact hbook ▸ lt_nextVersion ha
  have hfresh : ∀ b ∈ s.audiobooks.map DeliveredAudiobook.facts, b.id ≠ new.audiobookId := by
    intro b hb hid
    obtain ⟨a, ha, rfl⟩ := List.mem_map.mp hb
    exact hany (List.any_eq_true.mpr ⟨a, ha, decide_eq_true hid⟩)
  rw [Fits]
  simp only [List.map_append]
  rw [map_facts_of_facts_eq (fun a => by split_ifs <;> rfl), List.map_singleton]
  exact {
    ids := nodup_map_append_singleton h.ids hfresh
    versions := nodup_map_append_singleton h.versions fun b hb heq => by
      obtain ⟨hbook, hsame⟩ := Prod.ext_iff.mp heq
      exact absurd hsame (Nat.ne_of_lt (hversion b hb hbook))
    chapters := by
      intro b hb
      rcases List.mem_append.mp hb with hold | hnew
      · exact h.chapters b hold
      · rw [List.mem_singleton.mp hnew]
        exact new.chapters_nodup
    masters := by
      intro b hb
      rcases List.mem_append.mp hb with hold | hnew
      · obtain ⟨hkey, hdescribes⟩ := h.masters b hold
        refine ⟨hkey, hdescribes.update ?_ _⟩
        rw [hkey]
        intro heq
        obtain ⟨hbook, hsame⟩ := StorageKey.master.inj heq
        exact absurd hsame (Nat.ne_of_lt (hversion b hold hbook))
      · rw [List.mem_singleton.mp hnew]
        exact ⟨rfl, describes_reference output _ _ _⟩
    renditions := by
      intro r hr hready
      obtain ⟨b, hb, hid, hof⟩ := h.renditions r hr hready
      exact ⟨b, List.mem_append_left _ hb, hid, hof.update (hof.key_ne_master _ _) _⟩ }

theorem Fits.step (h : s.Fits) {action : Action} (hstep : s.step action = some s') : s'.Fits := by
  cases action with
  | assembleAudiobook new output => exact h.assembleAudiobook hstep
  | encodeSingleFile renditionId audiobookId format output => exact h.encodeSingleFile hstep
  | encodeMp3Chapter renditionId audiobookId index output => exact h.encodeMp3Chapter hstep
  | failEncode renditionId audiobookId format => exact h.failEncode hstep
  | publish audiobookId requestedFormats => exact h.publish hstep

theorem fits_of_reachable (h : Reachable s) : s.Fits := by
  induction h with
  | empty =>
    exact {
      ids := List.nodup_nil
      versions := List.nodup_nil
      chapters := by rintro a ⟨⟩
      masters := by rintro a ⟨⟩
      renditions := by rintro r ⟨⟩ }
  | step _ hstep ih => exact ih.step hstep

end DeliveryStore

/-! ## What the API Gives Out -/

/-- The object of a URL is an artifact in the format and of the content type that are reported, of
the whole audiobook, and with the size and the hash that are. -/
def Delivers (s : DeliveryStore) (a : DeliveredAudiobook) (url : AccessUrl) : Prop :=
  ∃ object, s.objects url.key = some object ∧ object.encoding = encodingOf url.format ∧
    object.encoding.contentType = url.contentType ∧ object.chapters = a.chapterIds ∧
    url.sizeBytes = some object.sizeBytes ∧ url.contentHash = object.contentHash

/-- A rendition of an audiobook in a format is `READY`. -/
def HasReady (s : DeliveryStore) (a : DeliveredAudiobook) (format : DeliveryFormat) : Prop :=
  ∃ r ∈ s.renditions, IsReady a.id format r

/-- There is an artifact of the whole audiobook in a format. -/
def Available (s : DeliveryStore) (a : DeliveredAudiobook) (format : DeliveryFormat) : Prop :=
  ∃ r ∈ s.renditions, IsReady a.id format r ∧ ∃ object, s.objects r.object.storageKey = some object ∧
    object.encoding = encodingOf format ∧ object.chapters = a.chapterIds

section api

variable {s : DeliveryStore} {a : DeliveredAudiobook} {body : CreateAccessUrlBody} {url : AccessUrl}

theorem contentType_encodingOf (format : DeliveryFormat) :
    (encodingOf format).contentType = containerFormatContentType format := by
  cases format <;> rfl

theorem formatName_injective : Function.Injective formatName := by
  intro f g h
  cases f <;> cases g <;> first | rfl | exact absurd h (by decide)

theorem formatName_ne_empty (format : DeliveryFormat) : formatName format ≠ "" := by
  cases format <;> decide

variable {format : DeliveryFormat}

theorem delivers_accessUrl_iff {durationMs : ℕ} {object : StorageReference} {encoding : Encoding}
    {chapters : List Id} (h : Describes s.objects object encoding chapters) :
    Delivers s a (accessUrl body format durationMs object) ↔
      encoding = encodingOf format ∧ chapters = a.chapterIds := by
  obtain ⟨sizeBytes, hpos, hsize, hobject⟩ := h
  constructor
  · rintro ⟨stored, hstored, hencoding, -, hchapters, -⟩
    obtain rfl := Option.some.inj (hobject.symm.trans hstored)
    exact ⟨hencoding, hchapters⟩
  · rintro ⟨rfl, rfl⟩
    refine ⟨_, hobject, rfl, contentType_encodingOf format, rfl, ?_, rfl⟩
    have hne : decide (sizeBytes ≠ 0) = true := decide_eq_true (Nat.ne_of_gt hpos)
    rw [accessUrl, hsize, Option.filter_some, if_pos hne]

theorem not_delivers_master (h : s.Fits) (ha : a ∈ s.audiobooks) (format : DeliveryFormat)
    (durationMs : ℕ) : ¬ Delivers s a (accessUrl body format durationMs a.object) := by
  have hdescribes : Describes s.objects a.object .wav a.chapterIds :=
    (h.masters a.facts (List.mem_map_of_mem ha)).2
  rw [delivers_accessUrl_iff hdescribes]
  rintro ⟨hwav, -⟩
  cases format <;> cases hwav

theorem describes_of_isReady (h : s.Fits) (ha : a ∈ s.audiobooks) {r : DeliveredRendition}
    (hr : r ∈ s.renditions) (hready : IsReady a.id format r) :
    ∃ chapters, Describes s.objects r.object (encodingOf format) chapters ∧
      (chapters = a.chapterIds ↔ (format = .mp3PerChapter → a.chapters.length = 1)) := by
  obtain ⟨haudiobook, hformat, hstatus⟩ := hready
  obtain ⟨b, hb, hid, hof⟩ := h.renditions r hr hstatus
  obtain rfl := h.eq_of_id hb (List.mem_map_of_mem ha) (hid.trans haudiobook)
  cases hof with
  | file hfile _ _ hdescribes =>
    rw [hformat] at hfile hdescribes
    exact ⟨a.chapterIds, hdescribes, iff_of_true rfl fun hmp3 => absurd hmp3 hfile⟩
  -- a file of one chapter is the whole audiobook where there is no other chapter
  | chapter index chapterId hmp3 _ hchapter _ hdescribes =>
    obtain rfl : format = .mp3PerChapter := hformat.symm.trans hmp3
    have hlength : a.chapterIds.length = a.chapters.length := List.length_map _
    refine ⟨[chapterId], hdescribes, fun hall _ => ?_, fun hone => ?_⟩
    · rw [← hlength, ← hall]
      rfl
    · obtain ⟨only, honly⟩ := List.length_eq_one_iff.mp (hlength.trans (hone rfl))
      obtain ⟨hindex, hget⟩ := List.getElem?_eq_some_iff.mp hchapter
      have hmem : chapterId ∈ a.chapterIds := hget ▸ List.getElem_mem hindex
      rw [honly, List.mem_singleton] at hmem
      rw [honly, hmem]

theorem available_iff (h : s.Fits) (ha : a ∈ s.audiobooks) (format : DeliveryFormat) :
    Available s a format ↔
      HasReady s a format ∧ (format = .mp3PerChapter → a.chapters.length = 1) := by
  constructor
  · rintro ⟨r, hr, hready, object, hobject, -, hchapters⟩
    obtain ⟨chapters, ⟨_, _, _, hstored⟩, hwhole⟩ := describes_of_isReady h ha hr hready
    obtain rfl := Option.some.inj (hstored.symm.trans hobject)
    exact ⟨⟨r, hr, hready⟩, hwhole.mp hchapters⟩
  · rintro ⟨⟨r, hr, hready⟩, hone⟩
    obtain ⟨chapters, ⟨_, _, _, hstored⟩, hwhole⟩ := describes_of_isReady h ha hr hready
    exact ⟨r, hr, hready, _, hstored, rfl, hwhole.mpr hone⟩

theorem mem_readyFormats_iff :
    format ∈ readyFormats s a ↔ format = a.containerFormat ∨ HasReady s a format := by
  rw [readyFormats, List.mem_cons]
  refine or_congr_right ⟨fun h => ?_, fun h => ?_⟩
  · obtain ⟨r, hr, rfl⟩ := List.mem_map.mp h
    obtain ⟨hmem, hready⟩ := List.mem_filter.mp hr
    obtain ⟨haudiobook, hstatus⟩ := of_decide_eq_true hready
    exact ⟨r, hmem, haudiobook, rfl, hstatus⟩
  · obtain ⟨r, hmem, haudiobook, rfl, hstatus⟩ := h
    exact List.mem_map.mpr
      ⟨r, List.mem_filter.mpr ⟨hmem, decide_eq_true ⟨haudiobook, hstatus⟩⟩, rfl⟩

theorem skip_iff (h : s.Fits) (ha : a ∈ s.audiobooks) (format : DeliveryFormat) :
    (format ∈ readyFormats s a → Available s a format) ↔
      (format = a.containerFormat → HasReady s a format) ∧
        (format = .mp3PerChapter → HasReady s a format → a.chapters.length = 1) := by
  rw [mem_readyFormats_iff, available_iff h ha]
  tauto

theorem createAudiobookAccessUrl_eq (h : s.Fits) (ha : a ∈ s.audiobooks)
    (hready : a.status = .ready) :
    createAudiobookAccessUrl s a.bookId a.id body = audiobookUrl s a body := by
  unfold createAudiobookAccessUrl
  split
  next hnone =>
    have hnot := List.find?_eq_none.mp hnone a ha
    exact absurd (decide_eq_true ⟨rfl, rfl⟩) hnot
  next b hfind =>
    have hid : b.id = a.id ∧ b.bookId = a.bookId := by simpa using List.find?_some hfind
    have hids := h.ids
    rw [List.map_map] at hids
    obtain rfl := List.inj_on_of_nodup_map hids (List.mem_of_find?_eq_some hfind) ha hid.1
    rw [if_neg (not_not.mpr hready)]

theorem delivers_audiobookUrl_iff (h : s.Fits) (ha : a ∈ s.audiobooks)
    (hurl : audiobookUrl s a body = .ok url) :
    Delivers s a url ↔ ∃ format, body.format = some (formatName format) ∧
      format ≠ a.containerFormat ∧ (format = .mp3PerChapter → a.chapters.length = 1) := by
  unfold audiobookUrl at hurl
  split at hurl
  -- without a format the master is given out, under the container format
  next hnone =>
    obtain rfl := Except.ok.inj hurl
    refine iff_of_false (not_delivers_master h ha _ _) ?_
    rintro ⟨format, hformat, -⟩
    rw [hnone] at hformat
    cases hformat
  next name hname =>
    split_ifs at hurl with hmaster
    -- and so it is under an empty format, or that of the container
    · obtain rfl := Except.ok.inj hurl
      refine iff_of_false (not_delivers_master h ha _ _) ?_
      rintro ⟨format, hformat, hne, -⟩
      obtain rfl := Option.some.inj (hname.symm.trans hformat)
      rcases hmaster with hempty | hcontainer
      · exact formatName_ne_empty format hempty
      · exact hne (formatName_injective hcontainer)
    · unfold renditionUrl at hurl
      split at hurl
      next => cases hurl
      next format hformat =>
        split at hurl
        next => cases hurl
        next r hr =>
          obtain rfl := Except.ok.inj hurl
          have hformat : formatName format = name := by simpa using List.find?_some hformat
          have hready : IsReady a.id format r := by simpa using List.find?_some hr
          obtain ⟨chapters, hdescribes, hwhole⟩ :=
            describes_of_isReady h ha (List.mem_of_find?_eq_some hr) hready
          rw [hready.2.1, delivers_accessUrl_iff hdescribes, hwhole]
          constructor
          · rintro ⟨-, hone⟩
            refine ⟨format, hname.trans (congrArg some hformat.symm), ?_, hone⟩
            rintro rfl
            exact hmaster (.inr hformat.symm)
          · rintro ⟨format', hname', -, hone⟩
            have hsame := Option.some.inj (hname.symm.trans hname')
            obtain rfl := formatName_injective (hformat.trans hsame)
            exact ⟨rfl, hone⟩

end api

namespace DeliveryStore

def run (s : DeliveryStore) (actions : List Action) : Option DeliveryStore :=
  actions.foldlM step s

theorem reachable_of_run {s s' : DeliveryStore} (h : s.Reachable) (actions : List Action)
    (hrun : s.run actions = some s') : s'.Reachable := by
  induction actions generalizing s with
  | nil =>
    obtain rfl := Option.some.inj hrun
    exact h
  | cons action actions ih =>
    rw [run, List.foldlM_cons] at hrun
    obtain ⟨next, hnext, hrest⟩ := Option.bind_eq_some_iff.mp hrun
    exact ih (h.step hnext) hrest

end DeliveryStore

def minute : Output where
  durationMs := 60000
  sizeBytes := 480000
  contentHash := 7
  sizeBytes_pos := by decide

/-- Two chapters, wanted as M4B. -/
def twoChapters : NewAudiobook where
  audiobookId := 1
  bookId := 1
  bookVersionId := 1
  jobId := 1
  primaryFormat := .m4b
  chapterManifestHash := 1
  chapters := [⟨1, 1⟩, ⟨2, 2⟩]
  chapters_nodup := by decide

/-- The audiobook is assembled, encoded and published. -/
def publication : List DeliveryStore.Action :=
  [.assembleAudiobook twoChapters minute, .encodeSingleFile 1 1 .m4b minute, .publish 1 [.m4b]]

def publishedStore : DeliveryStore := (DeliveryStore.empty.run publication).getD .empty

theorem reachable_publishedStore : publishedStore.Reachable :=
  DeliveryStore.reachable_of_run .empty publication rfl

theorem exists_ready_publishedStore : ∃ a ∈ publishedStore.audiobooks, a.status = .ready ∧
    HasReady publishedStore a a.containerFormat ∧ a.containerFormat ≠ .mp3PerChapter :=
  ⟨_, List.mem_cons_self, rfl, ⟨_, List.mem_cons_self, rfl, rfl, rfl⟩, by decide⟩

end AudioBook.AccessUrls
