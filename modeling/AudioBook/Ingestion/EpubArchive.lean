import AudioBook.Ingestion.EpubBlocks
import AudioBook.Numerics.Metered
import AudioBook.Texts.PercentEncoding
import Mathlib.Algebra.GroupWithZero.Nat
import Mathlib.Data.List.Infix

/-!
# Archives of an EPUB

`EpubParser.parse` of `parsers/epub-parser.ts` reads the entries of an archive that somebody uploaded.
`listEntries` adds up the sizes that the directory declares before anything is decompressed;
`readEntry` is then called for every item of the spine, which may name an entry again and again.

Main results:

- `spends_parse`: what is decompressed is what is named.
- `boundedRead_iff`: when this stays within the limit.
-/

namespace AudioBook.EpubArchive

open EpubBlocks Markup Metered PercentEncoding Structure

/-! ## Paths -/

/-- `path.posix.normalize` on the segments of a path; `kept` has the last segment first. -/
def normalizeSegments (allowAboveRoot : Bool) : List Text → List Text → List Text
  | kept, [] => kept.reverse
  | kept, segment :: segments =>
      if segment = [] ∨ segment = ['.'] then normalizeSegments allowAboveRoot kept segments
      else if segment = ['.', '.'] then
        match kept with
        | last :: rest =>
            if last = ['.', '.'] then normalizeSegments allowAboveRoot (segment :: kept) segments
            else normalizeSegments allowAboveRoot rest segments
        | [] =>
            if allowAboveRoot then normalizeSegments allowAboveRoot [segment] segments
            else normalizeSegments allowAboveRoot [] segments
      else normalizeSegments allowAboveRoot (segment :: kept) segments

/-- `path.posix.normalize`. -/
def normalizePath (path : Text) : Text :=
  let isAbsolute := decide (path.head? = some '/')
  let trailingSeparator := decide (path.getLast? = some '/')
  let segments := normalizeSegments (!isAbsolute) [] (path.splitOn '/')
  let normalized := ['/'].intercalate segments
  if path = [] then ['.']
  else if segments = [] then
    if isAbsolute then ['/'] else if trailingSeparator then ['.', '/'] else ['.']
  else
    (if isAbsolute then ['/'] else []) ++ normalized ++ (if trailingSeparator then ['/'] else [])

/-- `path.posix.join` of two paths. -/
def joinPath (a b : Text) : Text :=
  normalizePath (['/'].intercalate ([a, b].filter fun path => decide (path ≠ [])))

def dirname (path : Text) : Text :=
  let hasRoot := decide (path.head? = some '/')
  let rest := (path.rdropWhile (· = '/')).rdropWhile (· ≠ '/')
  if path = [] then ['.']
  else if rest.length ≤ 1 then if hasRoot then ['/'] else ['.']
  else if hasRoot ∧ rest.length = 2 then ['/', '/']
  else rest.dropLast

/-- `text.startsWith(prefix)`. -/
def startsWith (text start : Text) : Bool := start.isPrefixOf text

def isSafeEntryName (fileName : Text) : Bool :=
  let normalized := normalizePath fileName
  !fileName.isEmpty && !(startsWith fileName ['/'] || startsWith fileName ['\\']) &&
    !(startsWith normalized ['.', '.'] || decide (['.', '.', '/'] <:+: normalized))

/-! ## Archives -/

/-- The errors of `parse`. -/
inductive ParseError
  | corruptedFile (message : Text)
  | fileTooLarge (message : Text)
  | securityViolation (message : Text)
  | uriError
  | xmlError

/-- What `IngestionConfig` says about archives. -/
structure ArchiveConfig where
  maxEpubEntryCount : ℕ
  maxEpubUncompressedBytes : ℕ
  maxEpubEntryUncompressedBytes : ℕ

/-- The chunks of a stream, and whether an error comes after them. -/
structure Stream where
  chunks : List (List UInt8)
  fails : Bool := false

/-- `yauzl.Entry`, with what `openReadStream` gives for it. -/
structure Entry where
  fileName : Text
  externalFileAttributes : UInt32 := 0
  uncompressedSize : ℕ
  stream : Option Stream

def Entry.bytes (entry : Entry) : List UInt8 :=
  (entry.stream.map fun stream => stream.chunks.flatten).getD []

/-- A `yauzl.ZipFile`: its directory, and whether reading the directory ends in an error. -/
structure ZipFile where
  directory : List Entry
  fails : Bool := false

/-- The variables of `listEntries`. -/
structure Listing where
  entries : Text → Option Entry := fun _ => none
  count : ℕ := 0
  cumulativeUncompressed : ℕ := 0

/-- The `entry` event of `listEntries`. -/
def Listing.add (config : ArchiveConfig) (listing : Listing) (entry : Entry) :
    Except ParseError Listing :=
  let count := listing.count + 1
  let unixMode := (entry.externalFileAttributes >>> 16) &&& 0xf000
  let cumulativeUncompressed := listing.cumulativeUncompressed + entry.uncompressedSize
  let maxEntries := config.maxEpubEntryCount
  if maxEntries < count then
    .error (.securityViolation s!"EPUB has more than {maxEntries} entries.".toList)
  else if !isSafeEntryName entry.fileName then
    .error (.securityViolation ("Unsafe EPUB entry name: ".toList ++ entry.fileName))
  else if unixMode = 0xa000 then
    .error (.securityViolation ("EPUB entry is a symlink: ".toList ++ entry.fileName))
  else if config.maxEpubEntryUncompressedBytes < entry.uncompressedSize then
    .error (.fileTooLarge ("EPUB entry ".toList ++ entry.fileName ++
      " exceeds the per-entry size limit.".toList))
  else if config.maxEpubUncompressedBytes < cumulativeUncompressed then
    .error (.fileTooLarge "EPUB exceeds the total decompressed-size limit.".toList)
  else
    .ok { entries := Function.update listing.entries entry.fileName (some entry)
          count := count
          cumulativeUncompressed := cumulativeUncompressed }

def listEntries (zip : ZipFile) (config : ArchiveConfig) :
    Except ParseError (Text → Option Entry) := do
  let listing ← zip.directory.foldlM (Listing.add config) {}
  if zip.fails then throw (.corruptedFile "Error reading EPUB archive.".toList)
  return listing.entries

/-! ## Reading -/

/-- The `data` events of a stream. -/
def receive (config : ArchiveConfig) (fileName : Text) :
    List UInt8 → List (List UInt8) → Metered ParseError (List UInt8)
  | received, [] => pure received
  | received, chunk :: chunks => do
      spend chunk.length
      if config.maxEpubEntryUncompressedBytes < (received ++ chunk).length then
        throw (.securityViolation ("EPUB entry ".toList ++ fileName ++
          " decompressed beyond its declared size limit.".toList))
      else receive config fileName (received ++ chunk) chunks

def readEntry (entries : Text → Option Entry) (fileName : Text) (config : ArchiveConfig) :
    Metered ParseError (List UInt8) :=
  match entries fileName with
  | none => throw (.corruptedFile ("EPUB is missing required entry: ".toList ++ fileName))
  | some entry =>
      match entry.stream with
      | none => throw (.corruptedFile ("Could not read EPUB entry: ".toList ++ fileName))
      | some stream => do
          let bytes ← receive config fileName [] stream.chunks
          if stream.fails then
            throw (.corruptedFile ("Error streaming EPUB entry: ".toList ++ fileName))
          else pure bytes

/-! ## Package Documents -/

/-- What the XML parser gives for an element that may be repeated. -/
inductive Repeated (α : Type)
  | absent
  | one (item : α)
  | many (items : List α)

def Repeated.toList {α : Type} : Repeated α → List α
  | .absent => []
  | .one item => [item]
  | .many items => items

structure OpfManifestItem where
  id : Option Text
  href : Option Text

/-- What the XML parser gives for the `package` element of a package document. -/
structure OpfPackage where
  items : Repeated OpfManifestItem
  itemrefs : Repeated (Option Text)

/-- The parsers of other packages, each applied to the bytes of an entry, read as UTF-8. -/
structure Parsers where
  /-- The `full-path` attributes of the `rootfile` elements; `none` if the parser throws. -/
  container : List UInt8 → Option (Repeated (Option Text))
  /-- The `package` element, if there is one; `none` if the parser throws. -/
  opf : List UInt8 → Option (Option OpfPackage)
  html : List UInt8 → List (Event String Text)

def truthy (value : Option Text) : Option Text := value.filter fun text => !text.isEmpty

def parseContainerXml (parsers : Parsers) (xml : List UInt8) : Except ParseError Text :=
  match parsers.container xml with
  | none => .error .xmlError
  | some rootfiles =>
      match truthy (rootfiles.toList.head?.bind id) with
      | none => .error (.corruptedFile "EPUB container.xml is missing a rootfile.".toList)
      | some fullPath => .ok fullPath

structure Package where
  manifest : Text → Option Text
  spine : List Text

def parseOpf (parsers : Parsers) (xml : List UInt8) (opfPath : Text) :
    Except ParseError Package :=
  match parsers.opf xml with
  | none => .error .xmlError
  | some none =>
      .error (.corruptedFile ("EPUB OPF at ".toList ++ opfPath ++
        " is not a valid package document.".toList))
  | some (some package) =>
      .ok { manifest := package.items.toList.foldl
              (fun manifest item =>
                match truthy item.id, truthy item.href with
                | some id, some href => Function.update manifest id (some href)
                | _, _ => manifest) fun _ => none
            spine := package.itemrefs.toList.filterMap truthy }

def resolveManifestPath (opfPath href : Text) : Except ParseError Text :=
  match decodeURIComponent href with
  | none => .error .uriError
  | some decoded =>
      let resolved := normalizePath (joinPath (dirname opfPath) decoded)
      if startsWith resolved ['.', '.'] then
        .error (.securityViolation ("EPUB manifest href escapes the archive: ".toList ++ href))
      else .ok resolved

/-! ## The Parser -/

/-- The loop of `parse` over the spine. -/
def readSpine (parsers : Parsers) (entries : Text → Option Entry) (config : ArchiveConfig)
    (opfPath : Text) (manifest : Text → Option Text) :
    ℕ → List Text → Metered ParseError (List ExtractedBlock)
  | _, [] => pure []
  | spineIndex, idref :: spine =>
      match manifest idref with
      | none => readSpine parsers entries config opfPath manifest (spineIndex + 1) spine
      | some href => do
          let resolvedPath ← liftExcept (resolveManifestPath opfPath href)
          let xhtml ← readEntry entries resolvedPath config
          let spineBlocks := extractBlocksFromXhtml (parsers.html xhtml) spineIndex
          let blocks ← readSpine parsers entries config opfPath manifest (spineIndex + 1) spine
          pure (spineBlocks ++ blocks)

def containerName : Text := "META-INF/container.xml".toList

/-- `EpubParser.parse` on what `yauzl.fromBuffer` makes of the upload. -/
def parse (parsers : Parsers) (zip : Option ZipFile) (config : ArchiveConfig) :
    Metered ParseError ExtractedDocument :=
  match zip with
  | none => throw (.corruptedFile "EPUB is not a valid ZIP archive.".toList)
  | some zip => do
      let entries ← liftExcept (listEntries zip config)
      let containerXml ← readEntry entries containerName config
      let opfPath ← liftExcept (parseContainerXml parsers containerXml)
      let opfXml ← readEntry entries opfPath config
      let package ← liftExcept (parseOpf parsers opfXml opfPath)
      if package.spine = [] then
        throw (.corruptedFile "EPUB spine is empty or missing.".toList)
      else
        let blocks ← readSpine parsers entries config opfPath package.manifest 0 package.spine
        pure { sourceKind := .epub, blocks := blocks }

/-! ## What Is Read -/

/-- What reading an entry to its end gives. -/
def contents (entries : Text → Option Entry) (fileName : Text) : Option (List UInt8) :=
  match entries fileName with
  | none => none
  | some entry =>
      match entry.stream with
      | none => none
      | some stream => if stream.fails then none else some stream.chunks.flatten

/-- The bytes that reading an entry decompresses. -/
def size (entries : Text → Option Entry) (fileName : Text) : ℕ :=
  ((entries fileName).map fun entry => entry.bytes.length).getD 0

/-- The entries that a spine names, up to the first one that cannot be read. -/
def namedSpine (entries : Text → Option Entry) (opfPath : Text) (manifest : Text → Option Text) :
    List Text → List Text
  | [] => []
  | idref :: spine =>
      match manifest idref with
      | none => namedSpine entries opfPath manifest spine
      | some href =>
          match resolveManifestPath opfPath href with
          | .error _ => []
          | .ok resolvedPath =>
              resolvedPath ::
                if (contents entries resolvedPath).isSome then
                  namedSpine entries opfPath manifest spine
                else []

/-- The entries that a package names: its container file, its package document and its spine. -/
def named (parsers : Parsers) (entries : Text → Option Entry) : List Text :=
  containerName ::
    match contents entries containerName with
    | none => []
    | some containerXml =>
        match parseContainerXml parsers containerXml with
        | .error _ => []
        | .ok opfPath =>
            opfPath ::
              match contents entries opfPath with
              | none => []
              | some opfXml =>
                  match parseOpf parsers opfXml opfPath with
                  | .error _ => []
                  | .ok package => namedSpine entries opfPath package.manifest package.spine

section Reading

variable {entries : Text → Option Entry} {config : ArchiveConfig}

theorem spends_receive (fileName : Text) (received : List UInt8) {chunks : List (List UInt8)}
    (h : (received ++ chunks.flatten).length ≤ config.maxEpubEntryUncompressedBytes) :
    Spends (receive config fileName received chunks) (some (received ++ chunks.flatten))
      chunks.flatten.length := by
  induction chunks generalizing received with
  | nil => simpa [receive] using spends_pure received
  | cons chunk chunks ih =>
    have hchunks : (received ++ chunk ++ chunks.flatten).length ≤
        config.maxEpubEntryUncompressedBytes := by simpa using h
    have hwithin : (received ++ chunk).length ≤ config.maxEpubEntryUncompressedBytes := by
      rw [List.length_append] at hchunks
      omega
    rw [receive, if_neg (by omega), List.flatten_cons, ← List.append_assoc, List.length_append]
    exact (spends_spend chunk.length).bind (ih (received ++ chunk) hchunks)

/-- The entries have at most as many bytes as one entry may have. -/
def EntriesFit (entries : Text → Option Entry) (config : ArchiveConfig) : Prop :=
  ∀ fileName entry, entries fileName = some entry →
    entry.bytes.length ≤ config.maxEpubEntryUncompressedBytes

theorem spends_readEntry (hfit : EntriesFit entries config) (fileName : Text) :
    Spends (readEntry entries fileName config) (contents entries fileName)
      (size entries fileName) := by
  rw [readEntry, contents, size]
  cases hentry : entries fileName with
  | none => exact spends_throw _
  | some entry =>
    have hbytes := hfit fileName entry hentry
    rw [Entry.bytes] at hbytes
    simp only [Entry.bytes, Option.map_some, Option.getD_some]
    cases hstream : entry.stream with
    | none => exact spends_throw _
    | some stream =>
      simp only [hstream, Option.map_some, Option.getD_some] at hbytes ⊢
      have hreceived := spends_receive fileName [] hbytes
      cases stream.fails
      case false => exact .of_eq (hreceived.bind (spends_pure _)) (Nat.add_zero _)
      case true => exact .of_eq (hreceived.bind (spends_throw _)) (Nat.add_zero _)

variable (parsers : Parsers)

theorem spends_readSpine (hfit : EntriesFit entries config) (opfPath : Text)
    (manifest : Text → Option Text) (spineIndex : ℕ) (spine : List Text) :
    ∃ blocks, Spends (readSpine parsers entries config opfPath manifest spineIndex spine) blocks
      ((namedSpine entries opfPath manifest spine).map (size entries)).sum := by
  induction spine generalizing spineIndex with
  | nil => exact ⟨some [], spends_pure []⟩
  | cons idref spine ih =>
    cases hmanifest : manifest idref with
    | none => simpa [readSpine, namedSpine, hmanifest] using ih (spineIndex + 1)
    | some href =>
      simp only [readSpine, namedSpine, hmanifest]
      cases hpath : resolveManifestPath opfPath href with
      | error e => exact ⟨none, (spends_liftExcept_error rfl).bind_none⟩
      | ok resolvedPath =>
        have hresolved : Spends (liftExcept (.ok resolvedPath) : Metered ParseError Text)
            (some resolvedPath) 0 := spends_liftExcept_ok rfl
        have hread := spends_readEntry hfit resolvedPath
        cases hcontents : contents entries resolvedPath with
        | none =>
          rw [hcontents] at hread
          exact ⟨none, .of_eq (hresolved.bind hread.bind_none) (by simp [hcontents])⟩
        | some xhtml =>
          rw [hcontents] at hread
          obtain ⟨blocks, hblocks⟩ := ih (spineIndex + 1)
          cases blocks with
          | none =>
            exact ⟨none, .of_eq (hresolved.bind (hread.bind hblocks.bind_none))
              (by simp [hcontents])⟩
          | some blocks =>
            exact ⟨_, .of_eq (hresolved.bind (hread.bind (hblocks.bind (spends_pure _))))
              (by simp [hcontents])⟩

theorem spends_package (hfit : EntriesFit entries config) (opfPath : Text) (package : Package) :
    ∃ document : Option ExtractedDocument, Spends
      (if package.spine = [] then
        throw (.corruptedFile "EPUB spine is empty or missing.".toList)
      else do
        let blocks ← readSpine parsers entries config opfPath package.manifest 0 package.spine
        pure { sourceKind := .epub, blocks := blocks })
      document ((namedSpine entries opfPath package.manifest package.spine).map
        (size entries)).sum := by
  split
  case isTrue hspine =>
    rw [hspine]
    exact ⟨none, spends_throw _⟩
  case isFalse =>
    obtain ⟨blocks, hblocks⟩ :=
      spends_readSpine parsers hfit opfPath package.manifest 0 package.spine
    cases blocks with
    | none => exact ⟨none, hblocks.bind_none⟩
    | some blocks => exact ⟨_, .of_eq (hblocks.bind (spends_pure _)) (Nat.add_zero _)⟩

theorem spends_parse {zip : ZipFile} (hlist : listEntries zip config = .ok entries)
    (hfit : EntriesFit entries config) :
    ∃ document, Spends (parse parsers (some zip) config) document
      ((named parsers entries).map (size entries)).sum := by
  have hentries := spends_liftExcept_ok hlist
  have hcontainer := spends_readEntry hfit containerName
  simp only [parse, named]
  cases hcontainerXml : contents entries containerName with
  | none =>
    rw [hcontainerXml] at hcontainer
    exact ⟨none, .of_eq (hentries.bind hcontainer.bind_none) (by simp)⟩
  | some containerXml =>
    rw [hcontainerXml] at hcontainer
    cases hparsed : parseContainerXml parsers containerXml with
    | error e =>
      exact ⟨none, .of_eq
        (hentries.bind (hcontainer.bind (spends_liftExcept_error hparsed).bind_none))
        (by simp [hparsed])⟩
    | ok opfPath =>
      have hopfPath := spends_liftExcept_ok hparsed
      have hopf := spends_readEntry hfit opfPath
      cases hopfXml : contents entries opfPath with
      | none =>
        rw [hopfXml] at hopf
        exact ⟨none, .of_eq (hentries.bind (hcontainer.bind (hopfPath.bind hopf.bind_none)))
          (by simp [hparsed, hopfXml])⟩
      | some opfXml =>
        rw [hopfXml] at hopf
        cases hpackage : parseOpf parsers opfXml opfPath with
        | error e =>
          exact ⟨none, .of_eq (hentries.bind (hcontainer.bind (hopfPath.bind
            (hopf.bind (spends_liftExcept_error hpackage).bind_none))))
            (by simp [hparsed, hopfXml, hpackage])⟩
        | ok package =>
          obtain ⟨document, hdocument⟩ := spends_package parsers hfit opfPath package
          exact ⟨document, .of_eq (hentries.bind (hcontainer.bind (hopfPath.bind
            (hopf.bind ((spends_liftExcept_ok hpackage).bind hdocument)))))
            (by simp [hparsed, hopfXml, hpackage])⟩

end Reading

/-! ## The Limit -/

/-- No stream gives more bytes than its entry declares. -/
def StreamsBounded (zip : ZipFile) : Prop :=
  ∀ entry ∈ zip.directory, entry.bytes.length ≤ entry.uncompressedSize

section Entries

variable {config : ArchiveConfig} {entries : Text → Option Entry} {entry : Entry}

theorem EntriesFit.update (h : EntriesFit entries config)
    (hentry : entry.bytes.length ≤ config.maxEpubEntryUncompressedBytes) :
    EntriesFit (Function.update entries entry.fileName (some entry)) config := by
  intro fileName listed hlisted
  by_cases hname : fileName = entry.fileName
  · subst hname
    rw [Function.update_self, Option.some.injEq] at hlisted
    exact hlisted ▸ hentry
  · rw [Function.update_of_ne hname] at hlisted
    exact h fileName listed hlisted

theorem size_update_of_ne {name : Text} (hname : name ≠ entry.fileName) :
    size (Function.update entries entry.fileName (some entry)) name = size entries name := by
  rw [size, Function.update_of_ne hname, size]

theorem covers_update {total : ℕ} (hbytes : entry.bytes.length ≤ entry.uncompressedSize)
    (hcovers : ∀ names : List Text, names.Nodup → (names.map (size entries)).sum ≤ total)
    (names : List Text) (hnames : names.Nodup) :
    (names.map (size (Function.update entries entry.fileName (some entry)))).sum ≤
      total + entry.uncompressedSize := by
  by_cases hmem : entry.fileName ∈ names
  · have hothers : (names.erase entry.fileName).map
        (size (Function.update entries entry.fileName (some entry))) =
          (names.erase entry.fileName).map (size entries) :=
      List.map_congr_left fun name hname =>
        size_update_of_ne (hnames.mem_erase_iff.mp hname).1
    have hself : size (Function.update entries entry.fileName (some entry)) entry.fileName =
        entry.bytes.length := by simp [size]
    have hperm := ((List.perm_cons_erase hmem).map
      (size (Function.update entries entry.fileName (some entry)))).sum_eq
    rw [List.map_cons, List.sum_cons, hself, hothers] at hperm
    have hrest := hcovers (names.erase entry.fileName) (hnames.erase _)
    omega
  · have hothers : names.map (size (Function.update entries entry.fileName (some entry))) =
        names.map (size entries) :=
      List.map_congr_left fun name hname =>
        size_update_of_ne fun heq => hmem (heq ▸ hname)
    rw [hothers]
    exact (hcovers names hnames).trans (Nat.le_add_right ..)

end Entries

/-- What `listEntries` has made sure of. -/
structure Listing.Sound (config : ArchiveConfig) (listing : Listing) : Prop where
  entriesFit : EntriesFit listing.entries config
  within : listing.cumulativeUncompressed ≤ config.maxEpubUncompressedBytes
  covers : ∀ names : List Text, names.Nodup →
    (names.map (size listing.entries)).sum ≤ listing.cumulativeUncompressed

namespace Listing

variable {config : ArchiveConfig} {listing listing' : Listing} {entry : Entry}

theorem add_eq_ok (h : listing.add config entry = .ok listing') :
    entry.uncompressedSize ≤ config.maxEpubEntryUncompressedBytes ∧
      listing.cumulativeUncompressed + entry.uncompressedSize ≤ config.maxEpubUncompressedBytes ∧
      listing' =
        { entries := Function.update listing.entries entry.fileName (some entry)
          count := listing.count + 1
          cumulativeUncompressed := listing.cumulativeUncompressed + entry.uncompressedSize } := by
  simp only [add] at h
  split at h
  · cases h
  split at h
  · cases h
  split at h
  · cases h
  split at h
  · cases h
  case isFalse hentry =>
    split at h
    · cases h
    case isFalse htotal => exact ⟨Nat.le_of_not_lt hentry, Nat.le_of_not_lt htotal, by cases h; rfl⟩

theorem sound_empty : Sound config {} where
  entriesFit := fun _ _ h => by cases h
  within := Nat.zero_le _
  covers := fun names _ => by
    have hsize : size (fun _ => none) = fun _ => 0 := rfl
    simp [hsize]

theorem Sound.add (hsound : Sound config listing)
    (hbytes : entry.bytes.length ≤ entry.uncompressedSize)
    (h : listing.add config entry = .ok listing') : Sound config listing' := by
  obtain ⟨hentry, htotal, rfl⟩ := add_eq_ok h
  exact ⟨hsound.entriesFit.update (hbytes.trans hentry), htotal,
    covers_update hbytes hsound.covers⟩

theorem Sound.foldlM {directory : List Entry} (hsound : Sound config listing)
    (hbytes : ∀ entry ∈ directory, entry.bytes.length ≤ entry.uncompressedSize)
    (h : directory.foldlM (Listing.add config) listing = .ok listing') : Sound config listing' := by
  induction directory generalizing listing with
  | nil => exact Except.ok.inj h ▸ hsound
  | cons entry directory ih =>
    rw [List.foldlM_cons] at h
    cases hadd : listing.add config entry with
    | error e =>
      rw [hadd] at h
      cases h
    | ok added =>
      rw [hadd] at h
      exact ih (hsound.add (hbytes entry List.mem_cons_self) hadd)
        (fun entry hentry => hbytes entry (List.mem_cons_of_mem _ hentry)) h

end Listing

theorem sound_of_listEntries {zip : ZipFile} {config : ArchiveConfig}
    {entries : Text → Option Entry} (hbytes : StreamsBounded zip)
    (h : listEntries zip config = .ok entries) :
    ∃ listing : Listing, listing.Sound config ∧ listing.entries = entries := by
  rw [listEntries] at h
  cases hlisting : zip.directory.foldlM (Listing.add config) {} with
  | error e =>
    rw [hlisting] at h
    cases h
  | ok listing =>
    rw [hlisting] at h
    cases hfails : zip.fails
    case true =>
      rw [hfails] at h
      cases h
    case false =>
      rw [hfails] at h
      exact ⟨listing, Listing.sound_empty.foldlM hbytes hlisting, Except.ok.inj h⟩

/-- The bytes that `parse` decompresses stay within `maxEpubUncompressedBytes`. -/
def BoundedRead (parsers : Parsers) (zip : Option ZipFile) (config : ArchiveConfig) : Prop :=
  spent (parse parsers zip config) ≤ config.maxEpubUncompressedBytes

instance (parsers : Parsers) (zip : Option ZipFile) (config : ArchiveConfig) :
    Decidable (BoundedRead parsers zip config) :=
  inferInstanceAs (Decidable (_ ≤ _))

/-- The entries that a package names have few enough bytes, each counted as often as it is named. -/
def NamedFit (parsers : Parsers) (zip : Option ZipFile) (config : ArchiveConfig) : Prop :=
  ∀ archive ∈ zip, ∀ entries, listEntries archive config = .ok entries →
    ((named parsers entries).map (size entries)).sum ≤ config.maxEpubUncompressedBytes

/-- The package names no entry twice. -/
def NamedOnce (parsers : Parsers) (zip : Option ZipFile) (config : ArchiveConfig) : Prop :=
  ∀ archive ∈ zip, ∀ entries, listEntries archive config = .ok entries →
    (named parsers entries).Nodup

/-- What is decompressed stays within the limit if and only if the entries that the package names do,
with their repetitions. Without repetitions they do, as the directory does. -/
theorem boundedRead_iff (parsers : Parsers) (zip : Option ZipFile) (config : ArchiveConfig)
    (hbytes : ∀ archive ∈ zip, StreamsBounded archive) :
    (BoundedRead parsers zip config ↔ NamedFit parsers zip config) ∧
      (NamedOnce parsers zip config → BoundedRead parsers zip config) := by
  cases zip with
  | none =>
    have hbounded : BoundedRead parsers none config := Nat.zero_le _
    exact ⟨iff_of_true hbounded (by simp [NamedFit]), fun _ => hbounded⟩
  | some archive =>
    have hstreams := hbytes archive rfl
    cases hlist : listEntries archive config with
    | error e =>
      have hspends : Spends (parse parsers (some archive) config) none 0 :=
        (spends_liftExcept_error hlist).bind_none
      have hbounded : BoundedRead parsers (some archive) config := by
        rw [BoundedRead, hspends.spent]
        exact Nat.zero_le _
      exact ⟨iff_of_true hbounded (by simp [NamedFit, hlist]), fun _ => hbounded⟩
    | ok entries =>
      obtain ⟨listing, hsound, rfl⟩ := sound_of_listEntries hstreams hlist
      obtain ⟨document, hspends⟩ := spends_parse parsers hlist hsound.entriesFit
      have hiff : BoundedRead parsers (some archive) config ↔
          ((named parsers listing.entries).map (size listing.entries)).sum ≤
            config.maxEpubUncompressedBytes := by rw [BoundedRead, hspends.spent]
      refine ⟨hiff.trans (by simp [NamedFit, hlist]), fun honce => hiff.mpr ?_⟩
      have hnodup : (named parsers listing.entries).Nodup := honce archive rfl _ hlist
      exact (hsound.covers _ hnodup).trans hsound.within

def byteEntry (fileName : Text) (byte : UInt8) : Entry where
  fileName := fileName
  uncompressedSize := 1
  stream := some { chunks := [[byte]] }

/-- A container file, a package document and a chapter. -/
def threeEntries : ZipFile where
  directory := [byteEntry containerName 0, byteEntry ['p'] 1, byteEntry ['c'] 2]

/-- Parsers that find the package document and in it a spine that names the chapter so often. -/
def repeatedChapter (times : ℕ) : Parsers where
  container _ := some (.one (some ['p']))
  opf _ := some (some
    { items := .one { id := some ['i'], href := some ['c'] }
      itemrefs := .many (List.replicate times (some ['i'])) })
  html _ := []

/-- A limit that the three entries just meet. -/
def threeBytes : ArchiveConfig where
  maxEpubEntryCount := 3
  maxEpubUncompressedBytes := 3
  maxEpubEntryUncompressedBytes := 1

theorem streamsBounded_threeEntries : StreamsBounded threeEntries := by
  simp [StreamsBounded, threeEntries, byteEntry, Entry.bytes]

theorem boundedRead_iff_threeEntries :
    (BoundedRead (repeatedChapter 1) (some threeEntries) threeBytes ↔
      NamedFit (repeatedChapter 1) (some threeEntries) threeBytes) ∧
      (NamedOnce (repeatedChapter 1) (some threeEntries) threeBytes →
        BoundedRead (repeatedChapter 1) (some threeEntries) threeBytes) :=
  boundedRead_iff (repeatedChapter 1) (some threeEntries) threeBytes
    (by simpa using streamsBounded_threeEntries)

/-- The chapter is decompressed once for every time that the spine names it. -/
theorem not_forall_boundedRead :
    ¬ ∀ (parsers : Parsers) (zip : Option ZipFile) (config : ArchiveConfig),
      (∀ archive ∈ zip, StreamsBounded archive) → BoundedRead parsers zip config := by
  intro h
  exact absurd (h (repeatedChapter 2) (some threeEntries) threeBytes
    (by simpa using streamsBounded_threeEntries)) (by decide +kernel)

end AudioBook.EpubArchive
