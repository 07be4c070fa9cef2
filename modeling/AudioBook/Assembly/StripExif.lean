import AudioBook.Assembly.JpegSegments
import AudioBook.Schema.Rows
import Mathlib.Data.List.TakeWhile

/-!
# Metadata of a Cover

`stripExif` of `strip-exif.ts` cuts the APP1 segments out of a JPEG file and the metadata chunks out of
a PNG file, and leaves everything else as it is. This module has the functions and says what they do to
a JPEG file.

Main results:

- `loop_items`: what the loop does with markers that are read as they are meant.
- `exact_iff`: when exactly the APP1 segments are cut out.
-/

namespace AudioBook.StripExif

open Jpeg Numerics

/-! ## The Functions -/

/-- `buffer.subarray(start, end)`. -/
def subarray (buffer : List UInt8) (start stop : ℕ) : List UInt8 := (buffer.take stop).drop start

/-- The loop of `stripJpegExif`; `none` if a read throws. -/
def stripJpegLoop (buffer : List UInt8) (out : List (List UInt8)) (offset : ℕ) :
    Option (List UInt8) :=
  if offset + 4 ≤ buffer.length then
    let marker := buffer[offset + 1]?
    if buffer[offset]? ≠ some 0xff then some (out ++ [buffer.drop offset]).flatten
    else if marker = some 0xd9 then some (out ++ [buffer.drop offset]).flatten
    else if marker.any isRestartOrStart then
      stripJpegLoop buffer (out ++ [subarray buffer offset (offset + 2)]) (offset + 2)
    else if buffer.length < offset + 4 then some (out ++ [buffer.drop offset]).flatten
    else
      match readUInt16BE buffer (offset + 2) with
      | none => none
      | some segmentLength =>
          let segmentEnd := offset + 2 + segmentLength
          if marker = some 0xda then some (out ++ [buffer.drop offset]).flatten
          else if marker = some 0xe1 then stripJpegLoop buffer out segmentEnd
          else stripJpegLoop buffer (out ++ [subarray buffer offset segmentEnd]) segmentEnd
  else some out.flatten
termination_by buffer.length - offset

def stripJpegExif (buffer : List UInt8) : Option (List UInt8) :=
  if buffer.length < 4 ∨ readUInt16BE buffer 0 ≠ some 0xffd8 then some buffer
  else stripJpegLoop buffer [subarray buffer 0 2] 2

def PNG_SIGNATURE : List UInt8 := [0x89, 0x50, 0x4e, 0x47, 0x0d, 0x0a, 0x1a, 0x0a]

def PNG_METADATA_CHUNK_TYPES : List Text :=
  ["eXIf".toList, "tEXt".toList, "zTXt".toList, "iTXt".toList, "tIME".toList]

/-- `buffer.readUInt32BE(offset)`. -/
def readUInt32BE (buffer : List UInt8) (offset : ℕ) : Option ℕ := readUIntBE 4 buffer offset

/-- `toString('ascii')`, which clears the highest bit of every byte. -/
def asciiText (bytes : List UInt8) : Text := bytes.map fun byte => Char.ofNat (byte.toNat % 128)

/-- The loop of `stripPngMetadata`; `none` if a read throws. -/
def stripPngLoop (buffer : List UInt8) (out : List (List UInt8)) (offset : ℕ) :
    Option (List UInt8) :=
  if offset + 8 ≤ buffer.length then
    match readUInt32BE buffer offset with
    | none => none
    | some length =>
        let type := asciiText (subarray buffer (offset + 4) (offset + 8))
        let chunkEnd := offset + 12 + length
        if buffer.length < chunkEnd then some (out ++ [buffer.drop offset]).flatten
        else if type ∈ PNG_METADATA_CHUNK_TYPES then stripPngLoop buffer out chunkEnd
        else stripPngLoop buffer (out ++ [subarray buffer offset chunkEnd]) chunkEnd
  else some out.flatten
termination_by buffer.length - offset

def stripPngMetadata (buffer : List UInt8) : Option (List UInt8) :=
  if buffer.length < 8 ∨ subarray buffer 0 8 ≠ PNG_SIGNATURE then some buffer
  else stripPngLoop buffer [subarray buffer 0 8] 8

def stripExif (buffer : List UInt8) (mimeType : String) : Option (List UInt8) :=
  if mimeType = "image/jpeg" then stripJpegExif buffer
  else if mimeType = "image/png" then stripPngMetadata buffer
  else some buffer

/-! ## What Is Left Out -/

section Filter

variable {α : Type} {p q : α → Bool} {bytes : α → List UInt8} {least : ℕ}

theorem length_flatMap_filter (items : List α) (hle : ∀ item, p item = true → q item = true)
    (hleast : ∀ item, q item = true → p item = false → least ≤ (bytes item).length) :
    ((items.filter p).flatMap bytes).length ≤ ((items.filter q).flatMap bytes).length ∧
      ((∃ item ∈ items, q item = true ∧ p item = false) →
        ((items.filter p).flatMap bytes).length + least ≤
          ((items.filter q).flatMap bytes).length) := by
  induction items with
  | nil => simp
  | cons item items ih =>
    obtain ⟨hshorter, hmissing⟩ := ih
    rw [List.filter_cons, List.filter_cons]
    cases hp : p item
    case true =>
      simp only [hle item hp, if_true, List.flatMap_cons, List.length_append]
      refine ⟨by omega, ?_⟩
      rintro ⟨other, hother, hq, hnot⟩
      rcases List.mem_cons.mp hother with rfl | hother
      · rw [hp] at hnot
        cases hnot
      · have := hmissing ⟨other, hother, hq, hnot⟩
        omega
    case false =>
      cases hq : q item
      case false =>
        refine ⟨hshorter, ?_⟩
        rintro ⟨other, hother, hq', hnot⟩
        rcases List.mem_cons.mp hother with rfl | hother
        · rw [hq] at hq'
          cases hq'
        · exact hmissing ⟨other, hother, hq', hnot⟩
      case true =>
        have hitem := hleast item hq hp
        simp only [Bool.false_eq_true, if_false, if_true, List.flatMap_cons, List.length_append]
        exact ⟨by omega, fun _ => by omega⟩

end Filter

/-! ## Markers of a JPEG -/

section Loop

variable {buffer tail rest : List UInt8} {out : List (List UInt8)} {offset length : ℕ}
  {first marker high low : UInt8}

theorem subarray_eq (buffer : List UInt8) (offset length : ℕ) :
    subarray buffer offset (offset + length) = (buffer.drop offset).take length := by
  rw [subarray, List.drop_take, Nat.add_sub_cancel_left]

theorem loop_of_short (h : (buffer.drop offset).length < 4) :
    stripJpegLoop buffer out offset = some out.flatten := by
  rw [List.length_drop] at h
  rw [stripJpegLoop, if_neg (by omega)]

theorem loop_of_ne (h : Sees buffer offset first marker length) (hfirst : first ≠ 0xff) :
    stripJpegLoop buffer out offset = some (out.flatten ++ buffer.drop offset) := by
  rw [stripJpegLoop, if_pos h.within]
  simp [h.first, hfirst]

theorem loop_standalone (h : Sees buffer offset 0xff marker length)
    (hmarker : isRestartOrStart marker = true) :
    stripJpegLoop buffer out offset =
      stripJpegLoop buffer (out ++ [(buffer.drop offset).take 2]) (offset + 2) := by
  have hend : marker ≠ 0xd9 := by
    rintro rfl
    exact absurd hmarker (by decide)
  rw [stripJpegLoop, if_pos h.within]
  simp [h.first, h.marker, hmarker, hend, subarray_eq]

theorem loop_scan (h : Sees buffer offset 0xff 0xda length) :
    stripJpegLoop buffer out offset = some (out.flatten ++ buffer.drop offset) := by
  have hwithin := h.within
  have hmarker : isRestartOrStart 0xda = false := by decide
  rw [stripJpegLoop, if_pos h.within]
  simp [h.first, h.marker, h.length, hmarker]

theorem loop_segment (h : Sees buffer offset 0xff marker length)
    (hmarker : isRestartOrStart marker = false) (hend : marker ≠ 0xd9) (hscan : marker ≠ 0xda) :
    stripJpegLoop buffer out offset =
      stripJpegLoop buffer
        (if marker = 0xe1 then out else out ++ [(buffer.drop offset).take (2 + length)])
        (offset + 2 + length) := by
  have hwithin := h.within
  rw [stripJpegLoop, if_pos h.within]
  simp only [h.first, h.marker, h.length, ne_eq, not_true_eq_false, if_false, Option.some.injEq,
    hend, Option.any_some, hmarker, Bool.false_eq_true, hscan, if_neg (Nat.not_lt.mpr hwithin)]
  split <;> simp [add_assoc, subarray_eq]

end Loop

/-! ## Items -/

def isApp1 : Item → Bool
  | .standalone _ _ _ => false
  | .segment _ marker _ _ _ => decide (marker = 0xe1)

def kept (items : List Item) : List Item := items.filter fun item => !isApp1 item

theorem two_le_length_bytes (item : Item) : 2 ≤ item.bytes.length := by
  cases item with
  | standalone fill marker h => simp [Item.bytes]
  | segment fill marker payload h hpayload =>
    simp only [Item.bytes, List.length_append, List.length_cons]
    omega

theorem four_le_length_bytes {item : Item} (h : item.isSegment = true) :
    4 ≤ item.bytes.length := by
  cases item with
  | standalone fill marker hmarker => cases h
  | segment fill marker payload hmarker hpayload =>
    simp only [Item.bytes, List.length_append, List.length_cons, length_lengthBytes]
    omega

section Items

variable {buffer rest : List UInt8} {out : List (List UInt8)} {offset : ℕ}

theorem loop_item (out : List (List UInt8)) {item : Item} (hitem : item.misread = false)
    (hrest : 2 ≤ rest.length ∨ item.isSegment = true) (h : buffer.drop offset = item.bytes ++ rest) :
    stripJpegLoop buffer out offset =
      stripJpegLoop buffer (if isApp1 item then out else out ++ [item.bytes])
        (offset + item.bytes.length) := by
  have hbytes : (buffer.drop offset).take item.bytes.length = item.bytes := by
    rw [h, List.take_left]
  have hsees := Item.sees hitem hrest h
  cases item with
  | standalone fill marker hmarker =>
    obtain ⟨hstart, hlength, length, hsees⟩ := hsees
    rw [hlength] at hbytes
    rw [loop_standalone hsees hstart, hbytes, hlength]
    rfl
  | segment fill marker payload hmarker hpayload =>
    obtain ⟨hlength, hsees⟩ := hsees
    obtain ⟨hstart, hend, hscan⟩ := of_carriesLength hmarker
    rw [hlength] at hbytes
    rw [loop_segment hsees hstart hend hscan, hbytes, hlength]
    simp [isApp1, add_assoc]

theorem loop_items (out : List (List UInt8)) {items : List Item}
    (hitems : ∀ item ∈ items, item.misread = false)
    (hrest : 2 ≤ rest.length) (h : buffer.drop offset = items.flatMap Item.bytes ++ rest) :
    ∃ out' offset', stripJpegLoop buffer out offset = stripJpegLoop buffer out' offset' ∧
      out'.flatten = out.flatten ++ (kept items).flatMap Item.bytes ∧
      buffer.drop offset' = rest := by
  induction items generalizing out offset with
  | nil => exact ⟨out, offset, rfl, by simp [kept], h⟩
  | cons item items ih =>
    rw [List.flatMap_cons, List.append_assoc] at h
    have hstep := loop_item out (hitems item List.mem_cons_self)
      (.inl (by rw [List.length_append]; omega)) h
    have hdrop : buffer.drop (offset + item.bytes.length) = items.flatMap Item.bytes ++ rest := by
      rw [← List.drop_drop, h, List.drop_left]
    obtain ⟨out', offset', hloop, hout, hrest'⟩ :=
      ih _ (fun item hitem => hitems item (List.mem_cons_of_mem _ hitem)) hdrop
    refine ⟨out', offset', hstep.trans hloop, ?_, hrest'⟩
    rw [hout, kept, kept, List.filter_cons]
    cases isApp1 item <;> simp

end Items

/-! ## Files -/

/-- The file without its APP1 segments, and without the fill bytes before them. -/
def withoutApp1 (jpeg : MarkerSequence) : MarkerSequence :=
  { jpeg with items := kept jpeg.items }

/-- Exactly the APP1 segments are cut out. -/
def Exact (jpeg : MarkerSequence) : Prop :=
  stripExif jpeg.bytes "image/jpeg" = some (withoutApp1 jpeg).bytes

instance (jpeg : MarkerSequence) : Decidable (Exact jpeg) := inferInstanceAs (Decidable (_ = _))

/-- The items from the first misread one on. -/
def unread (jpeg : MarkerSequence) : List Item := jpeg.items.dropWhile fun item => !item.misread

/-- Some marker is misread. -/
def isMisread (jpeg : MarkerSequence) : Bool := !(unread jpeg).isEmpty || jpeg.ending.misread

/-- The bytes from the first misread marker on. -/
def unreadBytes (jpeg : MarkerSequence) : List UInt8 := tailBytes (unread jpeg) jpeg.ending

/-- The bytes behind what is misread as a segment. -/
def landing (jpeg : MarkerSequence) : List UInt8 :=
  (unreadBytes jpeg).drop (2 + misreadLength (unreadBytes jpeg))

/-- The file has a scan, or it ends with a segment or with its start. -/
def EndsWhole (jpeg : MarkerSequence) : Prop :=
  match jpeg.ending with
  | .nothing => ∀ item ∈ jpeg.items.getLast?, item.isSegment = true
  | .eoi _ => False
  | .scan _ _ _ _ => True

/-- No marker is misread and the file ends whole; or a marker is misread, no APP1 segment comes from
there on, and the bytes behind the misread segment are copied. -/
def Survives (jpeg : MarkerSequence) : Prop :=
  if isMisread jpeg then
    4 ≤ (unreadBytes jpeg).length ∧ (∀ item ∈ unread jpeg, isApp1 item = false) ∧
      (landing jpeg = [] ∨ 4 ≤ (landing jpeg).length ∧ (landing jpeg).head? ≠ some 0xff)
  else EndsWhole jpeg

/-- The misread segment ends before a byte `0xff`, which is read as the start of a marker. -/
def Resumes (jpeg : MarkerSequence) : Prop :=
  isMisread jpeg = true ∧ 4 ≤ (landing jpeg).length ∧ (landing jpeg).head? = some 0xff

theorem exact_eq (jpeg : MarkerSequence) :
    Exact jpeg = (stripJpegExif jpeg.bytes = some (withoutApp1 jpeg).bytes) := rfl

theorem kept_append (items items' : List Item) : kept (items ++ items') = kept items ++ kept items' :=
  List.filter_append ..

theorem isSegment_of_isApp1 {item : Item} (h : isApp1 item = true) : item.isSegment = true := by
  cases item with
  | standalone fill marker hmarker => cases h
  | segment fill marker payload hmarker hpayload => rfl

theorem length_kept (items : List Item) :
    ((kept items).flatMap Item.bytes).length ≤ (items.flatMap Item.bytes).length ∧
      ((∃ item ∈ items, isApp1 item = true) →
        ((kept items).flatMap Item.bytes).length + 4 ≤ (items.flatMap Item.bytes).length) := by
  have hfour : ∀ item : Item, true = true → (!isApp1 item) = false → 4 ≤ item.bytes.length :=
    fun item _ happ1 => four_le_length_bytes (isSegment_of_isApp1 (by simpa using happ1))
  have h := length_flatMap_filter items (fun _ _ => rfl) hfour
  simpa [kept] using h

variable {items : List Item}

theorem kept_eq_self (h : ∀ item ∈ items, isApp1 item = false) : kept items = items :=
  List.filter_eq_self.mpr fun item hitem => by simp [h item hitem]

theorem take_eq_kept_iff {ending : Ending} (n : ℕ) (h : (tailBytes items ending).length < n + 4) :
    (tailBytes items ending).take n = tailBytes (kept items) ending ↔
      (∀ item ∈ items, isApp1 item = false) ∧ (tailBytes items ending).length ≤ n := by
  constructor
  · intro heq
    have hlength := congrArg List.length heq
    have hkept := length_kept items
    simp only [tailBytes, List.length_take, List.length_append] at h hlength ⊢
    have hnone : ∀ item ∈ items, isApp1 item = false := by
      intro item hitem
      by_contra happ1
      have := hkept.2 ⟨item, hitem, by simpa using happ1⟩
      omega
    refine ⟨hnone, ?_⟩
    rw [kept_eq_self hnone] at hlength
    omega
  · rintro ⟨hnone, hn⟩
    rw [kept_eq_self hnone, List.take_of_length_le hn]

variable {jpeg : MarkerSequence}

theorem stripJpegExif_eq (h : 2 ≤ (tailBytes jpeg.items jpeg.ending).length) :
    stripJpegExif jpeg.bytes = stripJpegLoop jpeg.bytes [[0xff, 0xd8]] 2 := by
  have hlength : ¬ jpeg.bytes.length < 4 := by
    simp only [MarkerSequence.bytes, List.length_cons]
    omega
  rw [stripJpegExif, if_neg (by simp [hlength, readUInt16BE_bytes])]
  rfl

theorem exists_loop {before behind : List Item} (hitems : jpeg.items = before ++ behind)
    (hbefore : ∀ item ∈ before, item.misread = false)
    (hbehind : 2 ≤ (tailBytes behind jpeg.ending).length) :
    ∃ out offset, stripJpegExif jpeg.bytes = stripJpegLoop jpeg.bytes out offset ∧
      jpeg.bytes.drop offset = tailBytes behind jpeg.ending ∧
      ∀ rest, some (out.flatten ++ rest) = some (withoutApp1 jpeg).bytes ↔
        rest = tailBytes (kept behind) jpeg.ending := by
  have htail : tailBytes jpeg.items jpeg.ending =
      before.flatMap Item.bytes ++ tailBytes behind jpeg.ending := by
    simp [tailBytes, hitems]
  have hdrop2 : jpeg.bytes.drop 2 = before.flatMap Item.bytes ++ tailBytes behind jpeg.ending := htail
  obtain ⟨out, offset, hloop, hout, hdrop⟩ :=
    loop_items [[0xff, 0xd8]] hbefore hbehind hdrop2
  refine ⟨out, offset, ?_, hdrop, fun rest => ?_⟩
  · rw [stripJpegExif_eq (by rw [htail, List.length_append]; omega), hloop]
  · have hbytes : (withoutApp1 jpeg).bytes = out.flatten ++ tailBytes (kept behind) jpeg.ending := by
      rw [hout]
      simp [MarkerSequence.bytes, withoutApp1, tailBytes, hitems, kept_append]
    rw [hbytes, Option.some.injEq, List.append_right_inj]

theorem loop_misread {buffer bytes : List UInt8} {out : List (List UInt8)} {offset : ℕ}
    (hmisread : Misread bytes) (hlength : 4 ≤ bytes.length) (h : buffer.drop offset = bytes) :
    stripJpegLoop buffer out offset =
      stripJpegLoop buffer (out ++ [bytes.take (2 + misreadLength bytes)])
        (offset + 2 + misreadLength bytes) := by
  obtain ⟨marker, rest, rfl, hmarker⟩ := hmisread
  obtain ⟨_, _, high, low, tail, htail⟩ := exists_four hlength
  obtain ⟨-, -, rfl⟩ : _ ∧ _ ∧ rest = high :: low :: tail := by simpa using htail
  have hother : isRestartOrStart marker = false ∧ marker ≠ 0xd9 ∧ marker ≠ 0xda ∧
      marker ≠ 0xe1 := by
    rcases hmarker with rfl | rfl <;> decide
  obtain ⟨hstart, hend, hscan, happ1⟩ := hother
  rw [loop_segment (sees_of_drop h) hstart hend hscan, if_neg happ1, h]
  rfl

theorem misread_unreadBytes (h : isMisread jpeg = true) : Misread (unreadBytes jpeg) := by
  rw [unreadBytes]
  cases hunread : unread jpeg with
  | nil =>
    have hending : jpeg.ending.misread = true := by simpa [isMisread, hunread] using h
    simpa [tailBytes] using Ending.misread_bytes hending
  | cons item items =>
    have hitem : item.misread = true := by
      have hnot := List.head?_dropWhile_not (fun item : Item => !item.misread) jpeg.items
      rw [← unread, hunread] at hnot
      simpa using hnot
    rw [tailBytes, List.flatMap_cons, List.append_assoc]
    exact Item.misread_bytes hitem _

theorem items_eq (jpeg : MarkerSequence) :
    jpeg.items = (jpeg.items.takeWhile fun item => !item.misread) ++ unread jpeg :=
  List.takeWhile_append_dropWhile.symm

theorem misread_of_mem_takeWhile {item : Item}
    (h : item ∈ items.takeWhile fun item => !item.misread) : item.misread = false := by
  simpa using List.mem_takeWhile_imp h

theorem take_unreadBytes_eq_iff (jpeg : MarkerSequence) (n : ℕ)
    (h : (unreadBytes jpeg).length < n + 4) :
    (unreadBytes jpeg).take n = tailBytes (kept (unread jpeg)) jpeg.ending ↔
      (∀ item ∈ unread jpeg, isApp1 item = false) ∧ (unreadBytes jpeg).length ≤ n :=
  take_eq_kept_iff n h

theorem exact_iff_of_misread (h : isMisread jpeg = true) (hresumes : ¬ Resumes jpeg) :
    Exact jpeg ↔ Survives jpeg := by
  have hmisread := misread_unreadBytes h
  have htwo : 2 ≤ (unreadBytes jpeg).length := by
    obtain ⟨marker, rest, hbytes, -⟩ := hmisread
    rw [hbytes]
    simp
  obtain ⟨out, offset, hloop, hdrop, hexact⟩ :=
    exists_loop (items_eq jpeg) (fun item hitem => misread_of_mem_takeWhile hitem) htwo
  change jpeg.bytes.drop offset = unreadBytes jpeg at hdrop
  rw [Survives, if_pos h, exact_eq, hloop]
  by_cases hfour : 4 ≤ (unreadBytes jpeg).length
  case neg =>
    -- Fewer than four bytes are left out, and no APP1 segment is so short.
    have hnone := (take_unreadBytes_eq_iff jpeg 0 (by omega)).mp
    rw [loop_of_short (by rw [hdrop]; omega)]
    refine iff_of_false (fun hsome => ?_) (fun hsurvives => hfour hsurvives.1)
    have hnil := (hexact []).mp (by rw [List.append_nil]; exact hsome)
    have hzero : (unreadBytes jpeg).length ≤ 0 := (hnone hnil).2
    omega
  case pos =>
    have hdrop' : jpeg.bytes.drop (offset + 2 + misreadLength (unreadBytes jpeg)) = landing jpeg := by
      rw [add_assoc, ← List.drop_drop, hdrop, landing]
    rw [loop_misread hmisread hfour hdrop]
    by_cases hlanding : (landing jpeg).length < 4
    case pos =>
      have hwithin : (unreadBytes jpeg).length < 2 + misreadLength (unreadBytes jpeg) + 4 := by
        rw [landing, List.length_drop] at hlanding
        omega
      have hnil : landing jpeg = [] ↔
          (unreadBytes jpeg).length ≤ 2 + misreadLength (unreadBytes jpeg) := List.drop_eq_nil_iff
      rw [loop_of_short (by rw [hdrop']; exact hlanding), List.flatten_append, List.flatten_cons,
        List.flatten_nil, List.append_nil, hexact,
        take_unreadBytes_eq_iff jpeg _ hwithin, ← hnil]
      constructor
      · rintro ⟨hnone, hend⟩
        exact ⟨hfour, hnone, .inl hend⟩
      · rintro ⟨-, hnone, hend | ⟨hlong, -⟩⟩
        · exact ⟨hnone, hend⟩
        · omega
    case neg =>
      have hhead : (landing jpeg).head? ≠ some 0xff := fun hhead =>
        hresumes ⟨h, Nat.le_of_not_lt hlanding, hhead⟩
      obtain ⟨first, marker, high, low, tail, hbytes⟩ := exists_four (Nat.le_of_not_lt hlanding)
      have hfirst : first ≠ 0xff := by simpa [hbytes] using hhead
      rw [loop_of_ne (sees_of_drop (hdrop'.trans hbytes)) hfirst, hdrop', List.flatten_append,
        List.flatten_cons, List.flatten_nil, List.append_nil, List.append_assoc, landing,
        List.take_append_drop, hexact]
      have hwhole := take_unreadBytes_eq_iff jpeg (unreadBytes jpeg).length (by omega)
      rw [List.take_length] at hwhole
      rw [hwhole]
      constructor
      · rintro ⟨hnone, -⟩
        exact ⟨hfour, hnone, .inr ⟨Nat.le_of_not_lt hlanding, hhead⟩⟩
      · rintro ⟨-, hnone, -⟩
        exact ⟨hnone, le_rfl⟩

theorem exact_concat {last : Item} (hitems : jpeg.items = items ++ [last])
    (hending : jpeg.ending = .nothing) (hclear : ∀ item ∈ jpeg.items, item.misread = false) :
    Exact jpeg ↔ last.isSegment = true := by
  rw [hitems] at hclear
  have htail : tailBytes [last] jpeg.ending = last.bytes := by
    simp [tailBytes, hending, Ending.bytes]
  obtain ⟨out, offset, hloop, hdrop, hexact⟩ := exists_loop hitems
    (fun item hitem => hclear item (List.mem_append_left _ hitem))
    (by rw [htail]; exact two_le_length_bytes last)
  rw [htail] at hdrop
  rw [exact_eq, hloop]
  cases hsegment : last.isSegment
  case false =>
    have happ1 : isApp1 last = false := by
      cases last with
      | standalone fill marker h => rfl
      | segment fill marker payload h hpayload => cases hsegment
    have hshort := Item.length_bytes
      (hclear last (List.mem_append_right _ (List.mem_singleton_self last))) hsegment
    rw [loop_of_short (by rw [hdrop]; omega)]
    refine iff_of_false (fun hsome => ?_) (by simp)
    have hnil := (hexact []).mp (by rw [List.append_nil]; exact hsome)
    have hkept : kept [last] = [last] := by simp [kept, happ1]
    rw [hkept, htail] at hnil
    rw [← hnil] at hshort
    cases hshort
  case true =>
    have hlast := hclear last (List.mem_append_right _ (List.mem_singleton_self last))
    have hend : jpeg.bytes.drop (offset + last.bytes.length) = [] := by
      rw [← List.drop_drop, hdrop, List.drop_length]
    have hdrop' : jpeg.bytes.drop offset = last.bytes ++ [] := by rw [hdrop, List.append_nil]
    rw [loop_item out hlast (.inr hsegment) hdrop', loop_of_short (by simp [hend])]
    refine iff_of_true ?_ rfl
    cases happ1 : isApp1 last
    · simpa [kept, happ1, htail] using hexact last.bytes
    · simpa [kept, happ1, tailBytes, hending, Ending.bytes] using hexact []

theorem exact_iff_of_read (h : isMisread jpeg = false) : Exact jpeg ↔ EndsWhole jpeg := by
  obtain ⟨hunread, hmisread⟩ : unread jpeg = [] ∧ jpeg.ending.misread = false := by
    simpa [isMisread] using h
  have hclear : ∀ item ∈ jpeg.items, item.misread = false := by
    simpa [unread] using hunread
  have hbehind : jpeg.items = jpeg.items ++ [] := (List.append_nil _).symm
  cases hending : jpeg.ending with
  | nothing =>
    rcases List.eq_nil_or_concat jpeg.items with hnil | ⟨items, last, hitems⟩
    · rw [exact_eq, EndsWhole, hending]
      simp [stripJpegExif, MarkerSequence.bytes, withoutApp1, tailBytes, hnil, hending,
        Ending.bytes, kept]
    · rw [List.concat_eq_append] at hitems
      rw [exact_concat hitems hending hclear, EndsWhole, hending]
      simp [hitems]
  | eoi fill =>
    obtain rfl : fill = 0 := by simpa [Ending.misread, hending] using hmisread
    have htail : tailBytes [] jpeg.ending = [0xff, 0xd9] := by
      simp [tailBytes, hending, Ending.bytes, fillBytes]
    obtain ⟨out, offset, hloop, hdrop, hexact⟩ := exists_loop hbehind hclear (by rw [htail]; decide)
    rw [exact_eq, hloop, loop_of_short (by rw [hdrop, htail]; decide), EndsWhole, hending]
    refine iff_of_false (fun hsome => ?_) id
    have hnil := (hexact []).mp (by rw [List.append_nil]; exact hsome)
    rw [kept_eq_self (by simp), htail] at hnil
    cases hnil
  | scan fill header hheader data =>
    obtain rfl : fill = 0 := by simpa [Ending.misread, hending] using hmisread
    have htail : tailBytes [] jpeg.ending =
        0xff :: 0xda :: (lengthBytes header ++ (header ++ data)) := by
      simp [tailBytes, hending, Ending.bytes, fillBytes]
    obtain ⟨out, offset, hloop, hdrop, hexact⟩ :=
      exists_loop hbehind hclear (by rw [htail]; simp)
    rw [exact_eq, hloop, loop_scan (sees_segment _ hheader (hdrop.trans htail)), EndsWhole, hending]
    exact iff_of_true ((hexact _).mpr hdrop) trivial

/-- `stripExif` on a JPEG file. It cuts out exactly the APP1 segments if no marker is misread and the
file ends whole, or if what is misread lets no APP1 segment through; and only then, unless the misread
segment ends before a byte `0xff`. -/
theorem exact_iff (jpeg : MarkerSequence) :
    (Survives jpeg → Exact jpeg) ∧ (¬ Resumes jpeg → Exact jpeg → Survives jpeg) := by
  cases h : isMisread jpeg
  case false =>
    have hiff : Exact jpeg ↔ Survives jpeg := by
      rw [Survives, h]
      simpa using exact_iff_of_read h
    exact ⟨hiff.mpr, fun _ => hiff.mp⟩
  case true =>
    refine ⟨fun hsurvives => (exact_iff_of_misread h ?_).mpr hsurvives, fun hresumes =>
      (exact_iff_of_misread h hresumes).mp⟩
    rintro ⟨-, hfour, hhead⟩
    rw [Survives, if_pos h] at hsurvives
    obtain ⟨-, -, hnil | ⟨-, hne⟩⟩ := hsurvives
    · rw [hnil] at hfour
      cases hfour
    · exact hne hhead

theorem length_nil_lt : ([] : List UInt8).length + 2 < 256 ^ 2 := by decide

/-- An APP1 segment behind a fill byte, and an empty scan. -/
def filledApp1 : MarkerSequence where
  items := [.segment 1 0xe1 [0x47, 0x50, 0x53] (by decide) (by decide)]
  ending := .scan 0 [] length_nil_lt []

/-- The length of an APP1 segment behind a fill byte is read too early, so that the segment stays. -/
theorem not_forall_strippedExactly : ¬ ∀ jpeg : MarkerSequence, Exact jpeg := by
  intro h
  exact absurd (h filledApp1) (by decide +kernel)

end AudioBook.StripExif
