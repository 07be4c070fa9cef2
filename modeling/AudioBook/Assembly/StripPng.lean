import AudioBook.Assembly.StripExif

/-!
# Metadata of a PNG Cover

`stripPngMetadata` of `strip-exif.ts` walks through the chunks of a file. It reads a type as ASCII text,
which ignores the highest bit of every byte, and it copies what is left when a chunk is not complete.

Main results:

- `stripExif_pngBytes`, `stripExif_truncated`: what comes out.
- `stripped_iff`: for which files this is as it should be.
-/

namespace AudioBook.StripExif

open Numerics

/-! ## Chunks of a PNG -/

/-- A chunk: its length, its type, its data and a check sum. -/
structure Chunk where
  type : List UInt8
  data : List UInt8
  crc : List UInt8
  length_type : type.length = 4
  length_data : data.length < 256 ^ 4
  length_crc : crc.length = 4

def Chunk.bytes (chunk : Chunk) : List UInt8 :=
  bigEndian 4 chunk.data.length ++ (chunk.type ++ (chunk.data ++ chunk.crc))

def Chunk.isMetadata (chunk : Chunk) : Bool :=
  decide (chunk.type ∈ PNG_METADATA_CHUNK_TYPES.map fun type => type.map Char.toUInt8)

/-- The type of the chunk, as `toString('ascii')` has it, is one of metadata. -/
def Chunk.isCut (chunk : Chunk) : Bool := decide (asciiText chunk.type ∈ PNG_METADATA_CHUNK_TYPES)

theorem Chunk.isCut_of_isMetadata {chunk : Chunk} (h : chunk.isMetadata = true) :
    chunk.isCut = true := by
  have hall : ∀ type ∈ PNG_METADATA_CHUNK_TYPES.map fun type => type.map Char.toUInt8,
      asciiText type ∈ PNG_METADATA_CHUNK_TYPES := by decide +kernel
  exact decide_eq_true (hall chunk.type (of_decide_eq_true h))

theorem isCut_eq {chunk : Chunk} (h : chunk.isCut = true → chunk.isMetadata = true) :
    chunk.isCut = chunk.isMetadata :=
  Bool.eq_iff_iff.mpr ⟨h, Chunk.isCut_of_isMetadata⟩

theorem Chunk.length_bytes (chunk : Chunk) : chunk.bytes.length = 12 + chunk.data.length := by
  simp only [Chunk.bytes, List.length_append, length_bigEndian, chunk.length_type,
    chunk.length_crc]
  omega

section PngLoop

variable {buffer rest : List UInt8} {out : List (List UInt8)} {offset : ℕ}

theorem pngLoop_of_short (h : (buffer.drop offset).length < 8) :
    stripPngLoop buffer out offset = some out.flatten := by
  rw [List.length_drop] at h
  rw [stripPngLoop, if_neg (by omega)]

theorem pngLoop_eq (out : List (List UInt8)) {chunk : Chunk} {present : ℕ} (hpresent : 8 ≤ present)
    (h : buffer.drop offset = chunk.bytes.take present ++ rest) :
    stripPngLoop buffer out offset =
      if buffer.length < offset + chunk.bytes.length then
        some (out.flatten ++ buffer.drop offset)
      else stripPngLoop buffer
        (if chunk.isCut then out else out ++ [(buffer.drop offset).take chunk.bytes.length])
        (offset + chunk.bytes.length) := by
  have hbytes := chunk.length_bytes
  obtain ⟨more, rfl⟩ := Nat.exists_eq_add_of_le hpresent
  have hheader : chunk.bytes.take (8 + more) =
      bigEndian 4 chunk.data.length ++ (chunk.type ++ (chunk.data ++ chunk.crc).take more) := by
    rw [Chunk.bytes, ← List.append_assoc, List.take_append, List.take_of_length_le (by
      simp only [List.length_append, length_bigEndian, chunk.length_type]
      omega)]
    simp [chunk.length_type]
  rw [hheader, List.append_assoc] at h
  have hwithin : offset + 8 ≤ buffer.length := by
    have hlength := congrArg List.length h
    simp only [List.length_drop, List.length_append, length_bigEndian, chunk.length_type] at hlength
    omega
  have hlength : readUInt32BE buffer offset = some chunk.data.length := by
    rw [← ofBigEndian_bigEndian chunk.length_data]
    exact readUIntBE_of_drop (by decide) (length_bigEndian ..) h
  have htype : subarray buffer (offset + 4) (offset + 8) = chunk.type := by
    rw [show offset + 8 = offset + 4 + 4 from rfl, subarray_eq, ← List.drop_drop, h,
      List.drop_left' (length_bigEndian ..), List.append_assoc, List.take_left' chunk.length_type]
  rw [stripPngLoop, if_pos hwithin, hlength]
  simp only [htype, hbytes, ← add_assoc]
  split
  · simp
  · rw [Chunk.isCut]
    by_cases hcut : asciiText chunk.type ∈ PNG_METADATA_CHUNK_TYPES
    · simp [hcut]
    · simp [hcut, add_assoc, subarray_eq]

theorem pngLoop_chunk {chunk : Chunk} (h : buffer.drop offset = chunk.bytes ++ rest) :
    stripPngLoop buffer out offset =
      stripPngLoop buffer (if chunk.isCut then out else out ++ [chunk.bytes])
        (offset + chunk.bytes.length) := by
  have hwithin : ¬ buffer.length < offset + chunk.bytes.length := by
    have hlength := congrArg List.length h
    have hbytes := chunk.length_bytes
    simp only [List.length_drop, List.length_append] at hlength
    omega
  have hpresent : 8 ≤ chunk.bytes.length := by
    rw [chunk.length_bytes]
    omega
  rw [pngLoop_eq out hpresent (by rw [List.take_length]; exact h), if_neg hwithin, h, List.take_left]

theorem pngLoop_chunks (out : List (List UInt8)) {chunks : List Chunk}
    (h : buffer.drop offset = chunks.flatMap Chunk.bytes ++ rest) :
    ∃ out' offset', stripPngLoop buffer out offset = stripPngLoop buffer out' offset' ∧
      out'.flatten =
        out.flatten ++ (chunks.filter fun chunk => !chunk.isCut).flatMap Chunk.bytes ∧
      buffer.drop offset' = rest := by
  induction chunks generalizing out offset with
  | nil => exact ⟨out, offset, rfl, by simp, h⟩
  | cons chunk chunks ih =>
    rw [List.flatMap_cons, List.append_assoc] at h
    have hdrop : buffer.drop (offset + chunk.bytes.length) =
        chunks.flatMap Chunk.bytes ++ rest := by
      rw [← List.drop_drop, h, List.drop_left]
    obtain ⟨out', offset', hloop, hout, hrest⟩ := ih _ hdrop
    refine ⟨out', offset', (pngLoop_chunk h).trans hloop, ?_, hrest⟩
    rw [hout, List.filter_cons]
    cases chunk.isCut <;> simp

end PngLoop

/-- A chunk of which only the first `present` bytes are there. -/
structure TruncatedChunk where
  chunk : Chunk
  present : ℕ
  truncated : present < chunk.bytes.length

def TruncatedChunk.bytes (last : TruncatedChunk) : List UInt8 := last.chunk.bytes.take last.present

def pngBytes (chunks : List Chunk) : List UInt8 := PNG_SIGNATURE ++ chunks.flatMap Chunk.bytes

structure PngFile where
  chunks : List Chunk
  last : Option TruncatedChunk := none

def PngFile.bytes (file : PngFile) : List UInt8 :=
  pngBytes file.chunks ++ (file.last.map TruncatedChunk.bytes).getD []

def PngFile.kept (file : PngFile) : List Chunk :=
  file.chunks.filter fun chunk => !chunk.isMetadata

/-- Complete chunks are left out if they are metadata, and a second time nothing is; of a chunk in
which the file breaks off a part is left at most, and nothing if it is metadata. -/
def Stripped (file : PngFile) : Prop :=
  stripExif (pngBytes file.chunks) "image/png" = some (pngBytes file.kept) ∧
    (∀ out, stripExif (pngBytes file.chunks) "image/png" = some out →
      stripExif out "image/png" = some out) ∧
    ∀ last ∈ file.last, ∃ rest, rest <+: last.bytes ∧
      stripExif file.bytes "image/png" = some (pngBytes file.kept ++ rest) ∧
      (last.chunk.isMetadata = true → rest = [])

section Png

variable {chunks : List Chunk}

theorem stripExif_png (chunks : List Chunk) (rest : List UInt8) :
    ∃ out offset, stripExif (pngBytes chunks ++ rest) "image/png" =
        stripPngLoop (pngBytes chunks ++ rest) out offset ∧
      out.flatten = pngBytes (chunks.filter fun chunk => !chunk.isCut) ∧
      (pngBytes chunks ++ rest).drop offset = rest := by
  have hdrop : (pngBytes chunks ++ rest).drop 8 = chunks.flatMap Chunk.bytes ++ rest := by
    rw [pngBytes, List.append_assoc]
    exact List.drop_left' rfl
  obtain ⟨out, offset, hloop, hout, hrest⟩ :=
    pngLoop_chunks [PNG_SIGNATURE] hdrop
  refine ⟨out, offset, ?_, by simpa [pngBytes] using hout, hrest⟩
  have hlength : ¬ (pngBytes chunks ++ rest).length < 8 := by
    simp [pngBytes, PNG_SIGNATURE]
  have hsignature : subarray (pngBytes chunks ++ rest) 0 8 = PNG_SIGNATURE := by
    rw [subarray, List.drop_zero, pngBytes, List.append_assoc]
    exact List.take_left' rfl
  rw [← hloop]
  rw [stripExif, if_neg (by decide), if_pos rfl, stripPngMetadata,
    if_neg (by simp only [hlength, hsignature, ne_eq, not_true_eq_false, or_self, not_false_eq_true]),
    hsignature]

theorem stripExif_pngBytes (chunks : List Chunk) :
    stripExif (pngBytes chunks) "image/png" =
      some (pngBytes (chunks.filter fun chunk => !chunk.isCut)) := by
  obtain ⟨out, offset, hloop, hout, hrest⟩ := stripExif_png chunks []
  rw [List.append_nil] at hloop hrest
  rw [hloop, pngLoop_of_short (by simp [hrest]), hout]

theorem length_truncated (last : TruncatedChunk) : last.bytes.length = last.present := by
  rw [TruncatedChunk.bytes, List.length_take, Nat.min_eq_left last.truncated.le]

theorem stripExif_truncated (chunks : List Chunk) (last : TruncatedChunk) :
    stripExif (pngBytes chunks ++ last.bytes) "image/png" =
      some (pngBytes (chunks.filter fun chunk => !chunk.isCut) ++
        if 8 ≤ last.present then last.bytes else []) := by
  obtain ⟨out, offset, hloop, hout, hrest⟩ := stripExif_png chunks last.bytes
  have hpresent := length_truncated last
  rw [hloop]
  split
  case isTrue h =>
    have htruncated : (pngBytes chunks ++ last.bytes).length < offset + last.chunk.bytes.length := by
      have hlength := congrArg List.length hrest
      have := last.truncated
      rw [List.length_drop, hpresent] at hlength
      omega
    have hchunk : (pngBytes chunks ++ last.bytes).drop offset =
        last.chunk.bytes.take last.present ++ [] := by
      rw [hrest, List.append_nil, TruncatedChunk.bytes]
    rw [pngLoop_eq out h hchunk, if_pos htruncated, hout, hrest]
  case isFalse h =>
    rw [pngLoop_of_short (by rw [hrest, hpresent]; omega), hout, List.append_nil]

theorem stripExif_stripExif {out : List UInt8}
    (h : stripExif (pngBytes chunks) "image/png" = some out) :
    stripExif out "image/png" = some out := by
  rw [stripExif_pngBytes, Option.some.injEq] at h
  rw [← h, stripExif_pngBytes, List.filter_filter]
  simp

theorem stripExif_eq_kept_iff (chunks : List Chunk) :
    stripExif (pngBytes chunks) "image/png" =
        some (pngBytes (chunks.filter fun chunk => !chunk.isMetadata)) ↔
      ∀ chunk ∈ chunks, chunk.isCut = true → chunk.isMetadata = true := by
  rw [stripExif_pngBytes, Option.some.injEq, pngBytes, pngBytes, List.append_right_inj]
  constructor
  · intro heq chunk hchunk hcut
    by_contra hmetadata
    have hle : ∀ chunk : Chunk, (!chunk.isCut) = true → (!chunk.isMetadata) = true := by
      intro chunk hp
      cases hm : chunk.isMetadata
      · rfl
      · simp [chunk.isCut_of_isMetadata hm] at hp
    have hleast : ∀ chunk : Chunk, (!chunk.isMetadata) = true → (!chunk.isCut) = false →
        1 ≤ chunk.bytes.length := fun chunk _ _ => by
      rw [chunk.length_bytes]
      omega
    have hlength := (length_flatMap_filter chunks hle hleast).2
      ⟨chunk, hchunk, by simpa using hmetadata, by simp [hcut]⟩
    rw [heq] at hlength
    omega
  · intro h
    congr 1
    exact List.filter_congr fun chunk hchunk => by rw [isCut_eq (h chunk hchunk)]

end Png

/-- `stripExif` on a PNG file. It is exact, and no byte of metadata is left, if and only if no chunk has
a type that becomes one of metadata when its highest bits are cleared, and the file does not break off
in a chunk of metadata behind its type. -/
theorem stripped_iff (file : PngFile) :
    Stripped file ↔
      (∀ chunk ∈ file.chunks, chunk.isCut = true → chunk.isMetadata = true) ∧
        ∀ last ∈ file.last, last.chunk.isMetadata = true → last.present < 8 := by
  rw [Stripped, PngFile.kept, stripExif_eq_kept_iff]
  refine and_congr_right fun hchunks => ?_
  have hkept : (file.chunks.filter fun chunk => !chunk.isCut) =
      file.chunks.filter fun chunk => !chunk.isMetadata :=
    List.filter_congr fun chunk hchunk => by rw [isCut_eq (hchunks chunk hchunk)]
  constructor
  · rintro ⟨-, hlast⟩ last hmem hmetadata
    obtain ⟨rest, -, hout, hnil⟩ := hlast last hmem
    rw [PngFile.bytes, Option.mem_def.mp hmem, Option.map_some, Option.getD_some,
      stripExif_truncated, hkept, hnil hmetadata, Option.some.injEq, List.append_right_inj] at hout
    by_contra h8
    rw [if_pos (Nat.le_of_not_lt h8)] at hout
    have hlength := length_truncated last
    rw [hout, List.length_nil] at hlength
    omega
  · intro hlast
    refine ⟨fun out => stripExif_stripExif, fun last hmem => ?_⟩
    rw [PngFile.bytes, Option.mem_def.mp hmem, Option.map_some, Option.getD_some,
      stripExif_truncated, hkept]
    refine ⟨_, ?_, rfl, fun hmetadata => if_neg (Nat.not_le.mpr (hlast last hmem hmetadata))⟩
    split
    · exact List.prefix_rfl
    · exact List.nil_prefix

def truncatedText : PngFile where
  chunks := []
  last := some
    { chunk :=
        { type := [0x74, 0x45, 0x58, 0x74]
          data := [0x47, 0x50, 0x53]
          crc := [0, 0, 0, 0]
          length_type := rfl
          length_data := by decide
          length_crc := rfl }
      present := 11
      truncated := by decide }

/-- The text stays in the file. -/
theorem not_forall_stripped : ¬ ∀ file : PngFile, Stripped file := by
  intro h
  obtain ⟨rest, -, hout, hnil⟩ := (h truncatedText).2.2 _ rfl
  rw [hnil (by decide +kernel)] at hout
  exact absurd hout (by decide +kernel)

end AudioBook.StripExif
