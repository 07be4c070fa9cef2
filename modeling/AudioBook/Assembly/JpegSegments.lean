import AudioBook.Numerics.Bytes
import Mathlib.Data.List.Basic

/-!
# Marker Segments of a JPEG

A JPEG file is a sequence of markers after its start. A marker is `0xff` and a code; fill bytes `0xff`
may stand before it. Some markers stand alone, others carry a length and a payload. The sequence ends
with a scan, whose data is not divided further, or with the marker EOI, or it just ends.

The readers of cover images know the markers that stand alone but for TEM, and they know no fill
bytes: a marker behind a fill byte, and TEM, are misread as a segment with a length.
-/

namespace AudioBook.Jpeg

open Numerics

/-- RST0 to RST7 and SOI. -/
def isRestartOrStart (marker : UInt8) : Bool :=
  decide (marker = 0xd8) || (decide (0xd0 ≤ marker) && decide (marker ≤ 0xd7))

/-- The markers without a length; the first is TEM. -/
def standsAlone (marker : UInt8) : Bool := decide (marker = 0x01) || isRestartOrStart marker

/-- The markers of segments, apart from SOS. What is left out are markers that stand alone, EOI, SOS,
and the codes that are no markers. -/
def carriesLength (marker : UInt8) : Bool :=
  !standsAlone marker && !decide (marker ∈ [0x00, 0xd9, 0xda, 0xff])

theorem of_carriesLength {marker : UInt8} (h : carriesLength marker = true) :
    isRestartOrStart marker = false ∧ marker ≠ 0xd9 ∧ marker ≠ 0xda := by
  simp only [carriesLength, standsAlone, Bool.and_eq_true, Bool.not_eq_true', Bool.or_eq_false_iff,
    decide_eq_false_iff_not, List.mem_cons, not_or] at h
  exact ⟨h.1.2, h.2.2.1, h.2.2.2.1⟩

/-- Fill bytes, which may stand before every marker. -/
def fillBytes (fill : ℕ) : List UInt8 := List.replicate fill 0xff

/-- The length of a payload, which counts its own two bytes. -/
def lengthBytes (payload : List UInt8) : List UInt8 := bigEndian 2 (payload.length + 2)

theorem length_lengthBytes (payload : List UInt8) : (lengthBytes payload).length = 2 :=
  length_bigEndian ..

inductive Item
  | standalone (fill : ℕ) (marker : UInt8) (h : standsAlone marker = true)
  | segment (fill : ℕ) (marker : UInt8) (payload : List UInt8) (h : carriesLength marker = true)
      (hpayload : payload.length + 2 < 256 ^ 2)

def Item.isSegment : Item → Bool
  | .standalone _ _ _ => false
  | .segment _ _ _ _ _ => true

def Item.bytes : Item → List UInt8
  | .standalone fill marker _ => fillBytes fill ++ [0xff, marker]
  | .segment fill marker payload _ _ =>
      fillBytes fill ++ 0xff :: marker :: (lengthBytes payload ++ payload)

/-- The end of a sequence: nothing, EOI, or a scan with its header and all that comes after it. -/
inductive Ending
  | nothing
  | eoi (fill : ℕ)
  | scan (fill : ℕ) (header : List UInt8) (hheader : header.length + 2 < 256 ^ 2)
      (data : List UInt8)

def Ending.bytes : Ending → List UInt8
  | .nothing => []
  | .eoi fill => fillBytes fill ++ [0xff, 0xd9]
  | .scan fill header _ data =>
      fillBytes fill ++ 0xff :: 0xda :: (lengthBytes header ++ header ++ data)

/-- What comes after the marker SOI of a JPEG file. -/
structure MarkerSequence where
  items : List Item
  ending : Ending

/-- The bytes of some items and an end. -/
def tailBytes (items : List Item) (ending : Ending) : List UInt8 :=
  items.flatMap Item.bytes ++ ending.bytes

def MarkerSequence.bytes (jpeg : MarkerSequence) : List UInt8 :=
  0xff :: 0xd8 :: tailBytes jpeg.items jpeg.ending

/-! ## What Is Misread -/

/-- There is a fill byte, or the marker is TEM. -/
def Item.misread : Item → Bool
  | .standalone fill marker _ => decide (0 < fill) || decide (marker = 0x01)
  | .segment fill _ _ _ _ => decide (0 < fill)

/-- There is a fill byte. -/
def Ending.misread : Ending → Bool
  | .nothing => false
  | .eoi fill => decide (0 < fill)
  | .scan fill _ _ _ => decide (0 < fill)

/-- The length that is read where `bytes` starts. -/
def misreadLength (bytes : List UInt8) : ℕ := ofBigEndian ((bytes.drop 2).take 2)

/-- A misread marker: the code that is read is a fill byte or that of TEM. -/
def Misread (bytes : List UInt8) : Prop :=
  ∃ marker rest, bytes = 0xff :: marker :: rest ∧ (marker = 0xff ∨ marker = 0x01)

theorem misread_fillBytes {fill : ℕ} (hfill : 0 < fill) (rest : List UInt8) :
    Misread (fillBytes fill ++ 0xff :: rest) := by
  obtain ⟨more, rfl⟩ := Nat.exists_eq_succ_of_ne_zero hfill.ne'
  rw [fillBytes, List.replicate_succ]
  cases more with
  | zero => exact ⟨0xff, rest, rfl, .inl rfl⟩
  | succ more =>
    rw [List.replicate_succ]
    exact ⟨0xff, _, rfl, .inl rfl⟩

theorem Item.misread_bytes {item : Item} (h : item.misread = true) (rest : List UInt8) :
    Misread (item.bytes ++ rest) := by
  cases item with
  | standalone fill marker hmarker =>
    rcases Nat.eq_zero_or_pos fill with rfl | hfill
    · obtain rfl : marker = 0x01 := by simpa [Item.misread] using h
      exact ⟨0x01, rest, rfl, .inr rfl⟩
    · rw [Item.bytes, List.append_assoc, List.cons_append]
      exact misread_fillBytes hfill _
  | segment fill marker payload hmarker hpayload =>
    rw [Item.bytes, List.append_assoc, List.cons_append]
    exact misread_fillBytes (of_decide_eq_true h) _

theorem Ending.misread_bytes {ending : Ending} (h : ending.misread = true) :
    Misread ending.bytes := by
  cases ending with
  | nothing => cases h
  | eoi fill => exact misread_fillBytes (of_decide_eq_true h) _
  | scan fill header hheader data => exact misread_fillBytes (of_decide_eq_true h) _

theorem Item.length_bytes {item : Item} (hitem : item.misread = false)
    (h : item.isSegment = false) : item.bytes.length = 2 := by
  cases item with
  | standalone fill marker hmarker =>
    obtain ⟨hfill, -⟩ : fill = 0 ∧ marker ≠ 0x01 := by simpa [Item.misread] using hitem
    simp [Item.bytes, fillBytes, hfill]
  | segment fill marker payload hmarker hpayload => cases h

/-! ## Reading -/

/-- `buffer.readUInt16BE(offset)`. -/
def readUInt16BE (buffer : List UInt8) (offset : ℕ) : Option ℕ := readUIntBE 2 buffer offset

variable {offset : ℕ}

theorem readUInt16BE_of_drop {buffer tail : List UInt8} {high low : UInt8}
    (h : buffer.drop offset = high :: low :: tail) :
    readUInt16BE buffer offset = some (ofBigEndian [high, low]) :=
  readUIntBE_of_drop (by decide) rfl (h.trans (List.append_cons [high] low tail))

theorem readUInt16BE_bytes (jpeg : MarkerSequence) :
    readUInt16BE jpeg.bytes 0 = some 0xffd8 := by
  have h : readUInt16BE jpeg.bytes 0 = some (ofBigEndian [0xff, 0xd8]) := readUInt16BE_of_drop rfl
  exact h

/-- What the readers see at an offset behind which there are four bytes. -/
structure Sees (buffer : List UInt8) (offset : ℕ) (first marker : UInt8) (length : ℕ) : Prop where
  within : offset + 4 ≤ buffer.length
  first : buffer[offset]? = some first
  marker : buffer[offset + 1]? = some marker
  length : readUInt16BE buffer (offset + 2) = some length

theorem getElem?_of_drop {buffer tail : List UInt8} (h : buffer.drop offset = tail) (i : ℕ) :
    buffer[offset + i]? = tail[i]? := by
  rw [← h, List.getElem?_drop]

theorem sees_of_drop {buffer tail : List UInt8} {first marker high low : UInt8}
    (h : buffer.drop offset = first :: marker :: high :: low :: tail) :
    Sees buffer offset first marker (ofBigEndian [high, low]) where
  within := by
    have hlength := congrArg List.length h
    simp only [List.length_drop, List.length_cons] at hlength
    omega
  first := getElem?_of_drop h 0
  marker := getElem?_of_drop h 1
  length := readUInt16BE_of_drop (by rw [← List.drop_drop, h]; rfl)

theorem exists_four {bytes : List UInt8} (h : 4 ≤ bytes.length) :
    ∃ first marker high low tail, bytes = first :: marker :: high :: low :: tail := by
  match bytes, h with
  | first :: marker :: high :: low :: tail, _ => exact ⟨first, marker, high, low, tail, rfl⟩

theorem exists_five {bytes : List UInt8} (h : 5 ≤ bytes.length) :
    ∃ first second third fourth fifth tail,
      bytes = first :: second :: third :: fourth :: fifth :: tail := by
  match bytes, h with
  | first :: second :: third :: fourth :: fifth :: tail, _ =>
    exact ⟨first, second, third, fourth, fifth, tail, rfl⟩

theorem sees_segment {buffer payload : List UInt8} (rest : List UInt8) {marker : UInt8}
    (hpayload : payload.length + 2 < 256 ^ 2)
    (h : buffer.drop offset = 0xff :: marker :: (lengthBytes payload ++ rest)) :
    Sees buffer offset 0xff marker (payload.length + 2) := by
  obtain ⟨high, low, hbytes⟩ := List.length_eq_two.mp (length_bigEndian 2 (payload.length + 2))
  rw [← ofBigEndian_bigEndian hpayload, hbytes]
  rw [lengthBytes, hbytes] at h
  exact sees_of_drop h

theorem Item.sees {buffer behind : List UInt8} {item : Item} (hitem : item.misread = false)
    (hbehind : 2 ≤ behind.length ∨ item.isSegment = true)
    (h : buffer.drop offset = item.bytes ++ behind) :
    match item with
    | .standalone _ marker _ =>
        isRestartOrStart marker = true ∧ item.bytes.length = 2 ∧
          ∃ length, Sees buffer offset 0xff marker length
    | .segment _ marker payload _ _ =>
        item.bytes.length = 2 + (payload.length + 2) ∧
          Sees buffer offset 0xff marker (payload.length + 2) := by
  cases item with
  | standalone fill marker hmarker =>
    obtain ⟨hfill, htem⟩ : fill = 0 ∧ marker ≠ 0x01 := by simpa [Item.misread] using hitem
    subst hfill
    obtain ⟨high, low, tail, rfl⟩ : ∃ high low tail, behind = high :: low :: tail := by
      match behind, hbehind with
      | high :: low :: tail, _ => exact ⟨high, low, tail, rfl⟩
    exact ⟨by simpa [standsAlone, htem] using hmarker, rfl, _, sees_of_drop h⟩
  | segment fill marker payload hmarker hpayload =>
    obtain rfl : fill = 0 := by simpa [Item.misread] using hitem
    refine ⟨?_, sees_segment (payload ++ behind) hpayload
      (by simpa [Item.bytes, fillBytes] using h)⟩
    simp only [Item.bytes, fillBytes, List.replicate_zero, List.nil_append, List.length_cons,
      List.length_append, length_lengthBytes]
    omega

end AudioBook.Jpeg
