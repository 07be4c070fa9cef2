import AudioBook.Assembly.JpegSegments
import Mathlib.Data.List.TakeWhile

/-!
# Dimensions of a JPEG Cover

`readJpegDimensions` of `image-dimensions.ts` walks through the marker segments of a file until it meets
the header of a frame.

Main results:

- `readJpegDimensions_eq`: the function ends, and reads nothing outside the buffer.
- `dimensionsRead_iff`: when it finds the first frame header.
-/

namespace AudioBook.ImageDimensions

open Jpeg Numerics

/-! ## The Reader -/

/-- `ImageDimensions`. -/
structure Dimensions where
  width : ℕ
  height : ℕ
  deriving DecidableEq

def isSof (marker : UInt8) : Bool :=
  decide (0xc0 ≤ marker) && decide (marker ≤ 0xcf) && !decide (marker ∈ [0xc4, 0xc8, 0xcc])

/-- The loop of `readJpegDimensions`. The result is `none` if a read throws, and `some none` for
`null`. -/
def readJpegLoop (buffer : List UInt8) (offset : ℕ) : Option (Option Dimensions) :=
  if offset + 4 ≤ buffer.length then
    let marker := buffer[offset + 1]?
    if buffer[offset]? ≠ some 0xff then readJpegLoop buffer (offset + 1)
    else if marker.any fun marker => isRestartOrStart marker || decide (marker = 0xd9) then
      readJpegLoop buffer (offset + 2)
    else if buffer.length < offset + 4 then some none
    else
      match readUInt16BE buffer (offset + 2) with
      | none => none
      | some segmentLength =>
          if marker.any isSof then
            if buffer.length < offset + 9 then some none
            else
              match readUInt16BE buffer (offset + 5), readUInt16BE buffer (offset + 7) with
              | some height, some width => some (some { width := width, height := height })
              | _, _ => none
          else if marker = some 0xda then some none
          else readJpegLoop buffer (offset + (2 + segmentLength))
  else some none
termination_by buffer.length - offset

def readJpegDimensions (buffer : List UInt8) : Option (Option Dimensions) :=
  if buffer.length < 4 ∨ readUInt16BE buffer 0 ≠ some 0xffd8 then some none
  else readJpegLoop buffer 2

/-- The dimensions are read from the buffer, behind the marker at some offset. -/
def ReadAt (buffer : List UInt8) (dimensions : Dimensions) : Prop :=
  ∃ offset, offset + 9 ≤ buffer.length ∧
    readUInt16BE buffer (offset + 5) = some dimensions.height ∧
    readUInt16BE buffer (offset + 7) = some dimensions.width

theorem readJpegLoop_eq (buffer : List UInt8) (offset : ℕ) :
    ∃ result, readJpegLoop buffer offset = some result ∧
      ∀ dimensions ∈ result, ReadAt buffer dimensions := by
  have hnull : ∃ result : Option Dimensions, some none = some result ∧
      ∀ dimensions ∈ result, ReadAt buffer dimensions := ⟨none, rfl, by simp⟩
  fun_induction readJpegLoop buffer offset with
  | case1 | case2 | case9 => assumption
  | case3 | case5 | case8 | case10 => exact hnull
  | case4 offset hwithin marker hfirst hmarker hlong hread =>
    obtain ⟨n, hn⟩ := exists_readUIntBE (show offset + 2 + 2 ≤ buffer.length by omega)
    rw [readUInt16BE, hn] at hread
    cases hread
  | case6 offset hwithin marker hfirst hmarker hlong length hlength hsof hframe height width hwidth
      hheight =>
    refine ⟨some { width := width, height := height }, rfl, fun dimensions hdimensions => ?_⟩
    rw [Option.mem_some.mp hdimensions.symm]
    exact ⟨offset, Nat.le_of_not_lt hframe, hheight, hwidth⟩
  | case7 offset hwithin marker hfirst hmarker hlong length hlength hsof hframe hnone =>
    obtain ⟨height, hheight⟩ :=
      exists_readUIntBE (show offset + 5 + 2 ≤ buffer.length by omega)
    obtain ⟨width, hwidth⟩ :=
      exists_readUIntBE (show offset + 7 + 2 ≤ buffer.length by omega)
    exact (hnone height width hheight hwidth).elim

theorem readJpegDimensions_eq (buffer : List UInt8) :
    ∃ result, readJpegDimensions buffer = some result ∧
      ∀ dimensions ∈ result, ReadAt buffer dimensions := by
  rw [readJpegDimensions]
  split
  · exact ⟨none, rfl, by simp⟩
  · exact readJpegLoop_eq buffer 2

/-! ## Frames -/

/-- The width and the height that a frame header starts with, behind the precision. -/
def frameDimensions : List UInt8 → Option Dimensions
  | _ :: height₁ :: height₂ :: width₁ :: width₂ :: _ =>
      some { width := ofBigEndian [width₁, width₂], height := ofBigEndian [height₁, height₂] }
  | _ => none

def isFrame : Item → Bool
  | .standalone _ _ _ => false
  | .segment _ marker _ _ _ => isSof marker

/-- The frame headers are long enough for a width and a height. -/
def FramesComplete (items : List Item) : Prop :=
  ∀ fill marker payload h hpayload, Item.segment fill marker payload h hpayload ∈ items →
    isSof marker = true → 5 ≤ payload.length

def firstFrame : List Item → Option Dimensions
  | [] => none
  | .standalone _ _ _ :: items => firstFrame items
  | .segment _ marker payload _ _ :: items =>
      if isSof marker then frameDimensions payload else firstFrame items

/-- The dimensions in the first frame header before the scan are returned, or `null` if there is
none. -/
def DimensionsRead (jpeg : MarkerSequence) : Prop :=
  readJpegDimensions jpeg.bytes = some (firstFrame jpeg.items)

instance (jpeg : MarkerSequence) : Decidable (DimensionsRead jpeg) :=
  inferInstanceAs (Decidable (_ = _))

/-- The items from the first one on that is a frame header or misread. -/
def rest (jpeg : MarkerSequence) : List Item :=
  jpeg.items.dropWhile fun item => !(isFrame item || item.misread)

/-- The bytes from there on. -/
def restBytes (jpeg : MarkerSequence) : List UInt8 := tailBytes (rest jpeg) jpeg.ending

/-- Up to the first frame header, or up to the scan or the end, a marker is misread. -/
def misreadFirst (jpeg : MarkerSequence) : Bool :=
  match rest jpeg with
  | [] => jpeg.ending.misread
  | item :: _ => item.misread

/-- No marker is misread up to the first frame header; or what is misread takes all that comes, and
there is no frame header. -/
def Survives (jpeg : MarkerSequence) : Prop :=
  misreadFirst jpeg = true →
    (restBytes jpeg).length < 2 + misreadLength (restBytes jpeg) + 4 ∧ firstFrame jpeg.items = none

/-- The misread segment ends inside the file. -/
def Resumes (jpeg : MarkerSequence) : Prop :=
  misreadFirst jpeg = true ∧ 2 + misreadLength (restBytes jpeg) + 4 ≤ (restBytes jpeg).length

/-! ## Steps of the Loop -/

section Loop

variable {buffer behind : List UInt8} {offset length : ℕ} {marker : UInt8}

theorem loop_of_short (h : (buffer.drop offset).length < 4) :
    readJpegLoop buffer offset = some none := by
  rw [List.length_drop] at h
  rw [readJpegLoop, if_neg (by omega)]

theorem loop_standalone (h : Sees buffer offset 0xff marker length)
    (hmarker : isRestartOrStart marker = true) :
    readJpegLoop buffer offset = readJpegLoop buffer (offset + 2) := by
  rw [readJpegLoop, if_pos h.within]
  simp [h.first, h.marker, hmarker]

theorem loop_scan (h : Sees buffer offset 0xff 0xda length) :
    readJpegLoop buffer offset = some none := by
  have hmarker : isRestartOrStart 0xda = false := by decide
  have hsof : isSof 0xda = false := by decide
  rw [readJpegLoop, if_pos h.within]
  simp [h.first, h.marker, h.length, hmarker, hsof]

theorem loop_segment (h : Sees buffer offset 0xff marker length)
    (hmarker : isRestartOrStart marker = false) (hend : marker ≠ 0xd9) (hscan : marker ≠ 0xda)
    (hsof : isSof marker = false) :
    readJpegLoop buffer offset = readJpegLoop buffer (offset + 2 + length) := by
  have hwithin := h.within
  rw [readJpegLoop, if_pos h.within]
  simp only [h.first, h.marker, h.length, ne_eq, not_true_eq_false, if_false, Option.any_some,
    hmarker, hend, hsof, decide_false, Bool.or_self, Bool.false_eq_true, Option.some.injEq, hscan,
    if_neg (Nat.not_lt.mpr hwithin), add_assoc]

theorem loop_frame {payload : List UInt8} (hpayload : payload.length + 2 < 256 ^ 2)
    (hmarker : carriesLength marker = true) (hsof : isSof marker = true)
    (hframe : 5 ≤ payload.length)
    (h : buffer.drop offset = 0xff :: marker :: (lengthBytes payload ++ (payload ++ behind))) :
    readJpegLoop buffer offset = some (frameDimensions payload) := by
  have hsees := sees_segment _ hpayload h
  have hwithin := hsees.within
  obtain ⟨hstart, hend, -⟩ := of_carriesLength hmarker
  obtain ⟨high, low, hbytes⟩ := List.length_eq_two.mp (length_bigEndian 2 (payload.length + 2))
  obtain ⟨precision, height₁, height₂, width₁, width₂, more, rfl⟩ := exists_five hframe
  rw [lengthBytes, hbytes] at h
  have hlong : ¬ buffer.length < offset + 9 := by
    have hlength := congrArg List.length h
    simp only [List.length_drop, List.length_append, List.length_cons] at hlength
    omega
  have hheight : readUInt16BE buffer (offset + 5) = some (ofBigEndian [height₁, height₂]) :=
    readUInt16BE_of_drop (by rw [← List.drop_drop, h]; rfl)
  have hwidth : readUInt16BE buffer (offset + 7) = some (ofBigEndian [width₁, width₂]) :=
    readUInt16BE_of_drop (by rw [← List.drop_drop, h]; rfl)
  rw [readJpegLoop, if_pos hwithin]
  simp [hsees.first, hsees.marker, hsees.length, hstart, hend, hsof, hlong, hheight, hwidth,
    frameDimensions, Nat.not_lt.mpr hwithin]

theorem loop_misread {bytes : List UInt8} (hmisread : Misread bytes) (hlength : 4 ≤ bytes.length)
    (h : buffer.drop offset = bytes) :
    readJpegLoop buffer offset = readJpegLoop buffer (offset + 2 + misreadLength bytes) := by
  obtain ⟨marker, rest, rfl, hmarker⟩ := hmisread
  obtain ⟨_, _, high, low, tail, htail⟩ := exists_four hlength
  obtain ⟨-, -, rfl⟩ : _ ∧ _ ∧ rest = high :: low :: tail := by simpa using htail
  have hother : isRestartOrStart marker = false ∧ marker ≠ 0xd9 ∧ marker ≠ 0xda ∧
      isSof marker = false := by
    rcases hmarker with rfl | rfl <;> decide
  obtain ⟨hstart, hend, hscan, hsof⟩ := hother
  exact loop_segment (sees_of_drop h) hstart hend hscan hsof

theorem loop_item {item : Item} (hitem : item.misread = false) (hframe : isFrame item = false)
    (hbehind : 2 ≤ behind.length ∨ item.isSegment = true)
    (h : buffer.drop offset = item.bytes ++ behind) :
    readJpegLoop buffer offset = readJpegLoop buffer (offset + item.bytes.length) := by
  have hsees := Item.sees hitem hbehind h
  cases item with
  | standalone fill marker hmarker =>
    obtain ⟨hstart, hlength, length, hsees⟩ := hsees
    rw [loop_standalone hsees hstart, hlength]
  | segment fill marker payload hmarker hpayload =>
    obtain ⟨hlength, hsees⟩ := hsees
    obtain ⟨hstart, hend, hscan⟩ := of_carriesLength hmarker
    rw [loop_segment hsees hstart hend hscan hframe, hlength, add_assoc]

theorem loop_items {items : List Item}
    (hitems : ∀ item ∈ items, isFrame item = false ∧ item.misread = false)
    (hbehind : 2 ≤ behind.length) (h : buffer.drop offset = items.flatMap Item.bytes ++ behind) :
    ∃ offset', readJpegLoop buffer offset = readJpegLoop buffer offset' ∧
      buffer.drop offset' = behind := by
  induction items generalizing offset with
  | nil => exact ⟨offset, rfl, h⟩
  | cons item items ih =>
    rw [List.flatMap_cons, List.append_assoc] at h
    obtain ⟨hframe, hitem⟩ := hitems item List.mem_cons_self
    have hstep := loop_item hitem hframe (.inl (by rw [List.length_append]; omega)) h
    have hdrop : buffer.drop (offset + item.bytes.length) =
        items.flatMap Item.bytes ++ behind := by
      rw [← List.drop_drop, h, List.drop_left]
    obtain ⟨offset', hloop, hend⟩ :=
      ih (fun item hitem => hitems item (List.mem_cons_of_mem _ hitem)) hdrop
    exact ⟨offset', hstep.trans hloop, hend⟩

theorem loop_ending {ending : Ending} (hending : ending.misread = false)
    (h : buffer.drop offset = ending.bytes) : readJpegLoop buffer offset = some none := by
  cases ending with
  | nothing => exact loop_of_short (by simp [h, Ending.bytes])
  | eoi fill =>
    obtain rfl : fill = 0 := by simpa [Ending.misread] using hending
    exact loop_of_short (by simp [h, Ending.bytes, fillBytes])
  | scan fill header hheader data =>
    obtain rfl : fill = 0 := by simpa [Ending.misread] using hending
    exact loop_scan (sees_segment (header ++ data) hheader
      (by simpa [Ending.bytes, fillBytes] using h))

theorem loop_to_end {items : List Item} {ending : Ending}
    (hitems : ∀ item ∈ items, isFrame item = false ∧ item.misread = false)
    (hending : ending.misread = false) (h : buffer.drop offset = tailBytes items ending) :
    readJpegLoop buffer offset = some none := by
  induction items generalizing offset with
  | nil => exact loop_ending hending h
  | cons item items ih =>
    by_cases hshort : (buffer.drop offset).length < 4
    · exact loop_of_short hshort
    rw [tailBytes, List.flatMap_cons, List.append_assoc] at h
    obtain ⟨hframe, hitem⟩ := hitems item List.mem_cons_self
    have hbehind : 2 ≤ (tailBytes items ending).length ∨ item.isSegment = true := by
      cases hsegment : item.isSegment
      case true => exact .inr rfl
      case false =>
        rw [h, List.length_append, Item.length_bytes hitem hsegment] at hshort
        exact .inl (by rw [tailBytes]; omega)
    have hdrop : buffer.drop (offset + item.bytes.length) = tailBytes items ending := by
      rw [← List.drop_drop, h, List.drop_left]
      rfl
    rw [loop_item hitem hframe hbehind h]
    exact ih (fun item hitem => hitems item (List.mem_cons_of_mem _ hitem)) hdrop

end Loop

/-! ## Files -/

theorem readJpegDimensions_bytes (jpeg : MarkerSequence) :
    readJpegDimensions jpeg.bytes = readJpegLoop jpeg.bytes 2 := by
  rw [readJpegDimensions]
  split
  case isTrue h =>
    obtain hshort | hne := h
    · rw [loop_of_short (by rw [List.length_drop]; omega)]
    · exact absurd (readUInt16BE_bytes jpeg) hne
  case isFalse => rfl

theorem firstFrame_append {before behind : List Item}
    (h : ∀ item ∈ before, isFrame item = false) :
    firstFrame (before ++ behind) = firstFrame behind := by
  induction before with
  | nil => rfl
  | cons item before ih =>
    have hrest := ih fun item hitem => h item (List.mem_cons_of_mem _ hitem)
    have hitem := h item List.mem_cons_self
    cases item with
    | standalone fill marker hmarker => exact hrest
    | segment fill marker payload hmarker hpayload =>
      rw [List.cons_append, firstFrame, if_neg (by simpa [isFrame] using hitem), hrest]

section Files

variable {jpeg : MarkerSequence}

/-- The items up to the first one that is a frame header or misread. -/
def before (jpeg : MarkerSequence) : List Item :=
  jpeg.items.takeWhile fun item => !(isFrame item || item.misread)

theorem items_eq (jpeg : MarkerSequence) : jpeg.items = before jpeg ++ rest jpeg :=
  List.takeWhile_append_dropWhile.symm

theorem of_mem_before {item : Item} (h : item ∈ before jpeg) :
    isFrame item = false ∧ item.misread = false := by
  simpa using List.mem_takeWhile_imp h

theorem firstFrame_eq (jpeg : MarkerSequence) : firstFrame jpeg.items = firstFrame (rest jpeg) := by
  rw [items_eq jpeg, firstFrame_append fun item hitem => (of_mem_before hitem).1]

theorem exists_loop (h : 2 ≤ (restBytes jpeg).length) :
    ∃ offset, readJpegDimensions jpeg.bytes = readJpegLoop jpeg.bytes offset ∧
      jpeg.bytes.drop offset = restBytes jpeg := by
  have htail : jpeg.bytes.drop 2 = (before jpeg).flatMap Item.bytes ++ restBytes jpeg := by
    change tailBytes jpeg.items jpeg.ending = _
    rw [restBytes, tailBytes, tailBytes, items_eq jpeg, List.flatMap_append, List.append_assoc]
  obtain ⟨offset, hloop, hdrop⟩ := loop_items (fun item hitem => of_mem_before hitem) h htail
  exact ⟨offset, (readJpegDimensions_bytes jpeg).trans hloop, hdrop⟩

theorem misread_restBytes (h : misreadFirst jpeg = true) : Misread (restBytes jpeg) := by
  rw [misreadFirst] at h
  rw [restBytes, tailBytes]
  cases hrest : rest jpeg with
  | nil =>
    rw [hrest] at h
    exact Ending.misread_bytes h
  | cons item items =>
    rw [hrest] at h
    rw [List.flatMap_cons, List.append_assoc]
    exact Item.misread_bytes h _

theorem readJpegDimensions_of_misread (h : misreadFirst jpeg = true)
    (hshort : (restBytes jpeg).length < 2 + misreadLength (restBytes jpeg) + 4) :
    readJpegDimensions jpeg.bytes = some none := by
  have hmisread := misread_restBytes h
  have htwo : 2 ≤ (restBytes jpeg).length := by
    obtain ⟨marker, behind, hbytes, -⟩ := hmisread
    rw [hbytes]
    simp
  obtain ⟨offset, hloop, hdrop⟩ := exists_loop htwo
  rw [hloop]
  by_cases hfour : 4 ≤ (restBytes jpeg).length
  case neg => exact loop_of_short (by rw [hdrop]; omega)
  case pos =>
    rw [loop_misread hmisread hfour hdrop]
    refine loop_of_short ?_
    rw [add_assoc, ← List.drop_drop, hdrop, List.length_drop]
    omega

theorem dimensionsRead_of_read (hcomplete : FramesComplete jpeg.items)
    (h : misreadFirst jpeg = false) : DimensionsRead jpeg := by
  rw [misreadFirst] at h
  rw [DimensionsRead, firstFrame_eq]
  cases hrest : rest jpeg with
  | nil =>
    rw [hrest] at h
    have hbefore : jpeg.items = before jpeg := by rw [items_eq jpeg, hrest, List.append_nil]
    rw [readJpegDimensions_bytes]
    have htail : jpeg.bytes.drop 2 = tailBytes (before jpeg) jpeg.ending := by
      rw [← hbefore]
      rfl
    exact loop_to_end (fun item hitem => of_mem_before hitem) h htail
  | cons item items =>
    rw [hrest] at h
    have hframe : isFrame item = true := by
      have hnot := List.head?_dropWhile_not
        (fun item : Item => !(isFrame item || item.misread)) jpeg.items
      rw [← rest, hrest] at hnot
      simpa [h] using hnot
    cases item with
    | standalone fill marker hmarker => cases hframe
    | segment fill marker payload hmarker hpayload =>
      obtain rfl : fill = 0 := by simpa [Item.misread] using h
      have hbytes : restBytes jpeg = 0xff :: marker ::
          (lengthBytes payload ++ (payload ++ tailBytes items jpeg.ending)) := by
        simp [restBytes, hrest, tailBytes, Item.bytes, fillBytes]
      have hmem : Item.segment 0 marker payload hmarker hpayload ∈ jpeg.items := by
        rw [items_eq jpeg, hrest]
        exact List.mem_append_right _ List.mem_cons_self
      have hsof : isSof marker = true := hframe
      have hlength := hcomplete 0 marker payload hmarker hpayload hmem hsof
      have htwo : 2 ≤ (restBytes jpeg).length := by
        rw [hbytes]
        simp
      obtain ⟨offset, hloop, hdrop⟩ := exists_loop htwo
      rw [hloop, loop_frame hpayload hmarker hsof hlength (hdrop.trans hbytes), firstFrame,
        if_pos hsof]

end Files

/-- `readJpegDimensions`. For arbitrary bytes it ends, and it reads nothing outside the buffer. In a
JPEG file it finds the first frame header if no marker is misread before it, or if what is misread
takes all that comes and there is no frame header; and only then, unless the misread segment ends
inside the file. -/
theorem dimensionsRead_iff (buffer : List UInt8) (jpeg : MarkerSequence)
    (hcomplete : FramesComplete jpeg.items) :
    (∃ result, readJpegDimensions buffer = some result ∧
      ∀ dimensions ∈ result, ReadAt buffer dimensions) ∧
    (Survives jpeg → DimensionsRead jpeg) ∧
      (¬ Resumes jpeg → DimensionsRead jpeg → Survives jpeg) := by
  refine ⟨readJpegDimensions_eq buffer, fun hsurvives => ?_, fun hresumes hread hmisread => ?_⟩
  · cases h : misreadFirst jpeg
    case false => exact dimensionsRead_of_read hcomplete h
    case true =>
      obtain ⟨hshort, hnone⟩ := hsurvives h
      rw [DimensionsRead, readJpegDimensions_of_misread h hshort, hnone]
  · have hshort : (restBytes jpeg).length < 2 + misreadLength (restBytes jpeg) + 4 :=
      Nat.lt_of_not_le fun hlong => hresumes ⟨hmisread, hlong⟩
    rw [DimensionsRead, readJpegDimensions_of_misread hmisread hshort] at hread
    exact ⟨hshort, (Option.some.inj hread).symm⟩

/-- A frame header behind a fill byte. -/
def filledFrame (fill : ℕ) : MarkerSequence where
  items := [.segment fill 0xc0 [8, 0, 2, 0, 3, 0] (by decide) (by decide)]
  ending := .scan 0 [] (by decide) []

theorem framesComplete_filledFrame (fill : ℕ) : FramesComplete (filledFrame fill).items := by
  intro fill' marker payload h hpayload hmem hsof
  obtain ⟨-, -, rfl⟩ : _ ∧ _ ∧ payload = [8, 0, 2, 0, 3, 0] := by simpa [filledFrame] using hmem
  decide

theorem dimensionsRead_iff_filledFrame :
    (∃ result, readJpegDimensions [] = some result ∧
      ∀ dimensions ∈ result, ReadAt [] dimensions) ∧
    (Survives (filledFrame 0) → DimensionsRead (filledFrame 0)) ∧
      (¬ Resumes (filledFrame 0) → DimensionsRead (filledFrame 0) → Survives (filledFrame 0)) :=
  dimensionsRead_iff [] (filledFrame 0) (framesComplete_filledFrame 0)

/-- The header behind the fill byte is not found. -/
theorem not_forall_dimensionsRead :
    ¬ ∀ jpeg : MarkerSequence, FramesComplete jpeg.items → DimensionsRead jpeg := by
  intro h
  exact absurd (h (filledFrame 1) (framesComplete_filledFrame 1)) (by decide +kernel)

end AudioBook.ImageDimensions
