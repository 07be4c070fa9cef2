import AudioBook.Numerics.BinaryRounding
import AudioBook.Numerics.Bytes
import AudioBook.Schema.Rows

/-!
# Encoding and Measuring Audio

`encode_wav` and `measure_wav`. Numbers are doubles; a machine has the lowest byte first. The two
levels in dBFS that a measurement also has are left out.

Main results:

- `roundTrips_iff`: samples round-trip if and only if none of them is infinite once it is scaled.
-/

namespace AudioBook.WaveAudio

open Numerics

/-! ## Containers -/

/-- What goes wrong with audio. -/
inductive WavError
  | tts (code : TtsErrorCode) (message : Text)
  /-- `OverflowError`: an infinite number has no integer. -/
  | overflow
  | value
  /-- `wave.Error`: a header that cannot be written. -/
  | wave
  deriving DecidableEq

/-- A number of Python: a finite one, or NaN or an infinite one. -/
inductive Sample
  | finite (value : ℚ)
  | nonFinite

/-- What is written to a wave container, and read from it. -/
structure WaveFile where
  channels : ℕ
  sampleWidth : ℕ
  sampleRate : ℕ
  frames : List UInt8
  deriving DecidableEq

/-- `getnframes()`. -/
def WaveFile.nframes (file : WaveFile) : ℕ :=
  file.frames.length / (file.channels * file.sampleWidth)

/-- `readframes(frame_count)`. -/
def WaveFile.raw (file : WaveFile) : List UInt8 :=
  file.frames.take (file.nframes * (file.channels * file.sampleWidth))

/-- The `wave` library: bytes for a file, and the file of some bytes, or what is wrong with them. -/
structure WaveContainer (Data : Type) where
  write : WaveFile → Option Data
  read : Data → Except Text WaveFile

/-- Files with a header like this one are stored as they are. -/
def WaveContainer.Faithful {Data : Type} (container : WaveContainer Data)
    (channels sampleWidth sampleRate : ℕ) : Prop :=
  ∀ frames, ∃ data, container.write ⟨channels, sampleWidth, sampleRate, frames⟩ = some data ∧
    container.read data = .ok ⟨channels, sampleWidth, sampleRate, frames⟩

/-! ## Encoding -/

/-- From here on the nearest double is infinite. -/
def overflowBound : ℚ := 2 ^ 1024 - 2 ^ 970

def fullScaleOf (bitDepth : ℕ) : ℤ := if bitDepth = 16 then 32767 else 2 ^ 23 - 1

def toInt (value : Sample) (fullScale : ℤ) : Except WavError ℤ :=
  match value with
  | .nonFinite =>
      .error (.tts .audioCorrupted "Synthesis produced a non-finite sample (NaN/Inf).".toList)
  | .finite value =>
      -- the product is infinite, and `round` does not take it
      if overflowBound ≤ |value * fullScale| then .error .overflow
      else .ok (max (-fullScale - 1) (min fullScale (roundEven (fl (value * fullScale)))))

/-- The bytes of a sample: of `array("h")`, or the first three that `struct.pack` gives. -/
def pcmBytes (bitDepth : ℕ) (n : ℤ) : List UInt8 :=
  if bitDepth = 16 then signedBytes 2 n else (signedBytes 4 n).take 3

section encode

variable {Data : Type} (container : WaveContainer Data)

def encodeWav (samples : List Sample) (sampleRate channels bitDepth : ℕ) : Except WavError Data :=
  if bitDepth ≠ 16 ∧ bitDepth ≠ 24 then
    .error (.tts .audioCorrupted ("Unsupported bit depth ".toList ++ Nat.toDigits 10 bitDepth ++
      "; §26.1 allows 16/24.".toList))
  else if samples.isEmpty then
    .error (.tts .audioCorrupted "Synthesis produced no samples.".toList)
  else do
    let ints ← samples.mapM fun value => toInt value (fullScaleOf bitDepth)
    let pcm := ints.flatMap (pcmBytes bitDepth)
    match container.write ⟨channels, bitDepth / 8, sampleRate, pcm⟩ with
    | some data => .ok data
    | none => .error .wave

end encode

/-! ## Measuring -/

/-- `array("h").frombytes`, less an odd byte at the end. -/
def int16s : List UInt8 → List ℤ
  | low :: high :: rest => signedValue [low, high] :: int16s rest
  | _ => []

/-- The complete groups of three bytes. -/
def int24s : List UInt8 → List ℤ
  | low :: middle :: high :: rest => signedValue [low, middle, high] :: int24s rest
  | _ => []

def normalizeSamples (raw : List UInt8) (sampleWidth : ℕ) : Except WavError (List ℚ) :=
  match sampleWidth with
  | 2 => .ok ((int16s raw).map fun (value : ℤ) => fl (value / 32768))
  | 3 => .ok ((int24s raw).map fun (value : ℤ) => fl (value / 8388608))
  | 1 => .ok (raw.map fun (byte : UInt8) => fl ((byte.toNat - 128) / 128))
  | _ => .error (.tts .audioCorrupted ("Unsupported PCM sample width: ".toList ++
      Nat.toDigits 10 sampleWidth ++ " bytes.".toList))

/-- `max(abs(value) for value in samples)`, of samples that there are. -/
def magnitude (samples : List ℚ) : ℚ := samples.foldl (fun peak value => max peak |value|) 0

def frameMagnitudes (samples : List ℚ) (channels : ℕ) : List ℚ :=
  if channels = 1 then samples.map fun value => |value|
  else (List.range (samples.length / channels)).map fun frame =>
    magnitude ((samples.drop (frame * channels)).take channels)

def framesToMs (frames sampleRate : ℕ) : ℤ := roundEven (fl (frames * 1000 / sampleRate))

/-- The longest run of silent frames, after one that is still going on. -/
def longestSilence (floorAmplitude : ℚ) : ℕ → ℕ → List ℚ → ℕ
  | _, longest, [] => longest
  | current, longest, magnitude :: rest =>
      if magnitude < floorAmplitude then
        longestSilence floorAmplitude (current + 1) (max longest (current + 1)) rest
      else longestSilence floorAmplitude 0 longest rest

/-- `_silence_spans`, in frames. -/
def silenceSpans (magnitudes : List ℚ) (floorAmplitude : ℚ) : ℕ × ℕ × ℕ :=
  let silent (magnitude : ℚ) : Bool := decide (magnitude < floorAmplitude)
  let total := magnitudes.length
  let leading := (magnitudes.takeWhile silent).length
  if leading = total then (total, 0, 0)
  else
    let trailing := (magnitudes.reverse.takeWhile silent).length
    (leading, trailing,
      longestSilence floorAmplitude 0 0 ((magnitudes.take (total - trailing)).drop leading))

/-- `_dbfs_to_amplitude` of the silence floor. -/
def floorAmplitude : ℚ := fl (1 / 1000)

/-- `AudioMeasurements`, less the levels in dBFS. -/
structure AudioMeasurements where
  durationMs : ℤ
  sampleRate : ℕ
  channels : ℕ
  sampleWidthBits : ℕ
  frameCount : ℕ
  clippedSampleRatio : ℚ
  leadingSilenceMs : ℤ
  trailingSilenceMs : ℤ
  longestInternalSilenceMs : ℤ
  deriving DecidableEq

/-- The share of the samples that are at full scale. -/
def clippedSampleRatio (normalized : List ℚ) : ℚ :=
  fl ((normalized.countP fun value => decide (fl (999 / 1000) ≤ |value|)) / normalized.length)

def measure (file : WaveFile) (normalized : List ℚ) : AudioMeasurements :=
  let (leading, trailing, internal) :=
    silenceSpans (frameMagnitudes normalized file.channels) floorAmplitude
  { durationMs := framesToMs file.nframes file.sampleRate
    sampleRate := file.sampleRate
    channels := file.channels
    sampleWidthBits := file.sampleWidth * 8
    frameCount := file.nframes
    clippedSampleRatio := clippedSampleRatio normalized
    leadingSilenceMs := framesToMs leading file.sampleRate
    trailingSilenceMs := framesToMs trailing file.sampleRate
    longestInternalSilenceMs := framesToMs internal file.sampleRate }

section container

variable {Data : Type} (container : WaveContainer Data)

/-- The container as `measure_wav` opens it. -/
def openWav (data : Data) : Except WavError WaveFile :=
  match container.read data with
  | .ok file => .ok file
  | .error exc =>
      .error (.tts .audioCorrupted ("Undecodable WAV container: ".toList ++ exc))

/-- The message about a header that leaves nothing to measure. -/
def degenerateHeader (file : WaveFile) : Text :=
  "Degenerate WAV header (rate=".toList ++ Nat.toDigits 10 file.sampleRate ++
    ", channels=".toList ++ Nat.toDigits 10 file.channels ++
    ", frames=".toList ++ Nat.toDigits 10 file.nframes ++ ").".toList

/-- `normalized`, of a file. -/
def decodedSamples (file : WaveFile) : Except WavError (List ℚ) :=
  normalizeSamples file.raw file.sampleWidth

/-- `measure_wav`, of an open file. -/
def measureFile (file : WaveFile) : Except WavError AudioMeasurements :=
  if file.sampleRate = 0 ∨ file.channels = 0 ∨ file.nframes = 0 then
    .error (.tts .audioCorrupted (degenerateHeader file))
  else do
    let normalized ← decodedSamples file
    if normalized.isEmpty then
      .error (.tts .audioCorrupted "WAV contains no readable sample data.".toList)
    else if (frameMagnitudes normalized file.channels).isEmpty then .error .value
    else .ok (measure file normalized)

def measureWav (data : Data) : Except WavError AudioMeasurements := do
  let file ← openWav container data
  measureFile file

end container

/-! ## Quantisation -/

section quantisation

variable {fullScale n : ℤ} {s v ε : ℚ}

/-- A full scale that is one less than a power of two of the range of the bit depths. -/
structure IsFullScale (fullScale : ℤ) : Prop where
  pos : 1 ≤ fullScale
  lt : fullScale < 2 ^ 23

theorem sub_sub_le (hpos : 1 ≤ fullScale) (hs : s = v * fullScale) (hlow : -1 ≤ v)
    (hn : |(n : ℚ) - s| ≤ 1 / 2 + ε) (hε : ε * (fullScale + 1) ≤ 1 / 2) (hnonneg : 0 ≤ ε) :
    n - s - v ≤ 3 / 2 := by
  have hscale : (1 : ℚ) ≤ fullScale := by exact_mod_cast hpos
  have hupper := (abs_le.mp hn).2
  have hhalf : ε ≤ 1 / 2 := by nlinarith
  rcases le_or_gt 0 v with hv | hv
  · linarith
  -- below zero, a number that is rounded down is only closer
  rcases le_or_gt (n : ℚ) s with hle | hgt
  · linarith
  · -- the sample is not at the rail, for the next number above it is in the range
    have hrail : (-fullScale : ℚ) < n := by nlinarith
    have hrail : -fullScale + 1 ≤ n := by exact_mod_cast hrail
    have hrail : (-fullScale + 1 : ℚ) ≤ n := by exact_mod_cast hrail
    nlinarith

theorem abs_sub_sub_le (hpos : 1 ≤ fullScale) (hs : s = v * fullScale) (hv : |v| ≤ 1)
    (hn : |(n : ℚ) - s| ≤ 1 / 2 + ε) (hε : ε * (fullScale + 1) ≤ 1 / 2) (hnonneg : 0 ≤ ε) :
    |n - s - v| ≤ 3 / 2 := by
  -- the lower bound is the upper one of the sample with the other sign
  have hneg : |((-n : ℤ) : ℚ) - -s| ≤ 1 / 2 + ε := by
    rwa [Int.cast_neg, neg_sub_neg, abs_sub_comm]
  have hupper := sub_sub_le hpos hs (abs_le.mp hv).1 hn hε hnonneg
  have hlower := sub_sub_le hpos (by rw [hs, neg_mul] : -s = -v * fullScale)
    (neg_le_neg (abs_le.mp hv).2) hneg hε hnonneg
  rw [Int.cast_neg] at hlower
  rw [abs_le]
  constructor <;> linarith

theorem abs_fl_sub_le (h : |s| ≤ 2 ^ (23 : ℤ)) : |fl s - s| ≤ 2 ^ (-30 : ℤ) := by
  have hexponent : binary64.exponent |s| ≤ 23 := by
    rcases (abs_nonneg s).eq_or_lt with hzero | hpos
    · rw [← hzero]
      decide +kernel
    · refine (Format.exponent_mono hpos h).trans ?_
      rw [Format.exponent, Format.log_two_zpow]
      decide
  have hprecision : (binary64.precision : ℤ) = 53 := rfl
  have hulp : binary64.ulp |s| ≤ 2 ^ (-29 : ℤ) := zpow_le_zpow_right₀ one_le_two (by omega)
  have hround := binary64.abs_round_sub_le s
  norm_num at hulp ⊢
  exact hround.trans (by linarith)

/-- The integer that stands for a finite sample. -/
def quantised (v : ℚ) (fullScale : ℤ) : ℤ :=
  max (-fullScale - 1) (min fullScale (roundEven (fl (v * fullScale))))

theorem IsFullScale.isDouble (h : IsFullScale fullScale) (hn : |n| ≤ fullScale) : IsDouble n := by
  have hlt := h.lt
  have hdouble := isDouble_of_digits (by omega : |n| < 2 ^ 53) (by decide : (-1074 : ℤ) ≤ 0)
  rwa [zpow_zero, mul_one] at hdouble

theorem le_roundEven_fl (hn : IsDouble n) (h : (n : ℚ) ≤ s) : n ≤ roundEven (fl s) :=
  le_roundEven (hn.symm.le.trans (Format.round_mono h))

theorem roundEven_fl_le (hn : IsDouble n) (h : s ≤ n) : roundEven (fl s) ≤ n :=
  roundEven_le ((Format.round_mono h).trans hn.le)

theorem quantised_of_one_le (h : IsFullScale fullScale) (hv : 1 ≤ v) :
    quantised v fullScale = fullScale := by
  have hpos := h.pos
  have hscale : (0 : ℚ) < fullScale := by exact_mod_cast hpos
  have hle := le_roundEven_fl (h.isDouble (abs_of_pos hpos).le)
    (by nlinarith : (fullScale : ℚ) ≤ v * fullScale)
  rw [quantised, min_eq_left hle, max_eq_right (by omega)]

theorem quantised_of_le_neg_one (h : IsFullScale fullScale) (hv : v ≤ -1) :
    quantised v fullScale = -fullScale - 1 ∨ quantised v fullScale = -fullScale := by
  have hpos := h.pos
  have hscale : (0 : ℚ) < fullScale := by exact_mod_cast hpos
  have hle := roundEven_fl_le (h.isDouble ((abs_neg _).trans (abs_of_pos hpos)).le)
    (by push_cast; nlinarith : v * fullScale ≤ ((-fullScale : ℤ) : ℚ))
  rw [quantised]
  omega

theorem quantised_of_abs_le (h : IsFullScale fullScale) (hv : |v| ≤ 1) :
    quantised v fullScale = roundEven (fl (v * fullScale)) := by
  have hpos := h.pos
  have hscale : (0 : ℚ) < fullScale := by exact_mod_cast hpos
  obtain ⟨hlow, hhigh⟩ := abs_le.mp hv
  have hupper := roundEven_fl_le (h.isDouble (abs_of_pos hpos).le)
    (by nlinarith : v * fullScale ≤ (fullScale : ℚ))
  have hlower := le_roundEven_fl (h.isDouble ((abs_neg _).trans (abs_of_pos hpos)).le)
    (by push_cast; nlinarith : ((-fullScale : ℤ) : ℚ) ≤ v * fullScale)
  rw [quantised, min_eq_right hupper, max_eq_right (by omega)]

theorem quantised_mem (h : IsFullScale fullScale) (v : ℚ) :
    -fullScale - 1 ≤ quantised v fullScale ∧ quantised v fullScale ≤ fullScale := by
  have hpos := h.pos
  exact ⟨le_max_left _ _, max_le (by omega) (min_le_left _ _)⟩

theorem abs_quantised_sub_le (h : IsFullScale fullScale) (v : ℚ) :
    |(quantised v fullScale : ℚ) / (fullScale + 1) - max (-1) (min 1 v)| ≤
      3 / 2 * (1 / (fullScale + 1)) := by
  have hscale : (1 : ℚ) ≤ fullScale := by exact_mod_cast h.pos
  have hpos : (0 : ℚ) < fullScale + 1 := by linarith
  have hstep : 0 < 1 / ((fullScale : ℚ) + 1) := one_div_pos.mpr hpos
  rcases le_or_gt |v| 1 with hv | hv
  -- between the rails both the double and the integer are rounded
  · have hlt : (fullScale : ℚ) < 2 ^ 23 := by exact_mod_cast h.lt
    have hclamp : max (-1) (min 1 v) = v := by
      rw [min_eq_right (abs_le.mp hv).2, max_eq_right (abs_le.mp hv).1]
    have hscaled : |v * fullScale| ≤ 2 ^ (23 : ℤ) := by
      rw [abs_mul, abs_of_pos (by linarith : (0 : ℚ) < fullScale)]
      norm_num at hlt ⊢
      nlinarith
    have hround : |((quantised v fullScale : ℤ) : ℚ) - v * fullScale| ≤ 1 / 2 + 2 ^ (-30 : ℤ) := by
      rw [quantised_of_abs_le h hv]
      exact (abs_sub_le _ (fl (v * fullScale)) _).trans
        (add_le_add (abs_roundEven_sub_le _) (abs_fl_sub_le hscaled))
    have herror := abs_sub_sub_le h.pos rfl hv hround (by norm_num; linarith) (by positivity)
    have heq : (quantised v fullScale : ℚ) / (fullScale + 1) - v =
        (quantised v fullScale - v * fullScale - v) * (1 / (fullScale + 1)) := by
      field_simp
      ring
    rw [hclamp, heq, abs_mul, abs_of_pos hstep]
    exact mul_le_mul_of_nonneg_right herror hstep.le
  -- beyond them the integer is at full scale, which is one step short of the upper rail
  · rcases lt_abs.mp hv with hup | hdown
    · have heq : (fullScale : ℚ) / (fullScale + 1) - 1 = -(1 / (fullScale + 1)) := by
        field_simp
        ring
      rw [quantised_of_one_le h hup.le, min_eq_left hup.le, max_eq_right (by norm_num), heq,
        abs_neg, abs_of_pos hstep]
      linarith
    · have hclamp : max (-1) (min 1 v) = -1 := by
        rw [min_eq_right (by linarith), max_eq_left (by linarith)]
      rw [hclamp]
      rcases quantised_of_le_neg_one h (by linarith : v ≤ -1) with heq | heq
      · have hrail : ((-fullScale - 1 : ℤ) : ℚ) / (fullScale + 1) - -1 = 0 := by
          push_cast
          field_simp
          ring
        rw [heq, hrail, abs_zero]
        positivity
      · have hrail : ((-fullScale : ℤ) : ℚ) / (fullScale + 1) - -1 = 1 / (fullScale + 1) := by
          push_cast
          field_simp
          ring
        rw [heq, hrail, abs_of_pos hstep]
        linarith

end quantisation

/-! ## Bytes -/

section bytes

variable {bitDepth : ℕ}

theorem isFullScale_fullScaleOf (bitDepth : ℕ) : IsFullScale (fullScaleOf bitDepth) := by
  unfold fullScaleOf
  split_ifs
  · exact ⟨by decide, by decide⟩
  · exact ⟨by decide, by decide⟩

theorem length_pcmBytes (hdepth : bitDepth = 16 ∨ bitDepth = 24) (n : ℤ) :
    (pcmBytes bitDepth n).length = bitDepth / 8 := by
  rcases hdepth with rfl | rfl
  · exact length_signedBytes 2 n
  · rw [pcmBytes, if_neg (by decide), take_signedBytes 3 1 n, length_signedBytes]

theorem length_flatMap_pcmBytes (hdepth : bitDepth = 16 ∨ bitDepth = 24) (ints : List ℤ) :
    (ints.flatMap (pcmBytes bitDepth)).length = ints.length * (bitDepth / 8) := by
  induction ints with
  | nil => simp
  | cons n ints ih =>
    rw [List.flatMap_cons, List.length_append, length_pcmBytes hdepth, ih, List.length_cons,
      Nat.succ_mul, Nat.add_comm]

theorem decode_flatMap {decode : List UInt8 → List ℤ} {encode : ℤ → List UInt8} (width : ℕ)
    (hnil : decode [] = [])
    (hcons : ∀ n rest, decode (encode n ++ rest) = signedValue (signedBytes width n) :: decode rest)
    {ints : List ℤ} (h : ∀ n ∈ ints, -256 ^ width ≤ 2 * n ∧ 2 * n < 256 ^ width) :
    decode (ints.flatMap encode) = ints := by
  induction ints with
  | nil => exact hnil
  | cons n ints ih =>
    obtain ⟨hlow, hhigh⟩ := h n List.mem_cons_self
    rw [List.flatMap_cons, hcons, signedValue_signedBytes hlow hhigh,
      ih fun m hm => h m (List.mem_cons_of_mem _ hm)]

theorem map_fl_div {ints : List ℤ} {fullScale : ℤ} {k : ℕ} (hk : k ≤ 23)
    (hscale : fullScale + 1 = 2 ^ k) (h : ∀ n ∈ ints, -fullScale - 1 ≤ n ∧ n ≤ fullScale) :
    (ints.map fun (n : ℤ) => fl (n / 2 ^ k)) = ints.map fun (n : ℤ) => (n : ℚ) / (fullScale + 1) := by
  have hbound : (2 : ℤ) ^ k < 2 ^ 53 := pow_lt_pow_right₀ (by decide) (by omega)
  have hcast : (fullScale : ℚ) + 1 = 2 ^ k := by exact_mod_cast hscale
  refine List.map_congr_left fun n hn => ?_
  have habs : |n| ≤ 2 ^ k := by
    obtain ⟨hlow, hhigh⟩ := h n hn
    exact abs_le.mpr (by omega)
  have hdouble := isDouble_of_digits (habs.trans_lt hbound) (by omega : (-1074 : ℤ) ≤ -k)
  rw [zpow_neg, zpow_natCast, ← div_eq_mul_inv] at hdouble
  rw [hcast]
  exact hdouble

theorem normalizeSamples_flatMap (hdepth : bitDepth = 16 ∨ bitDepth = 24) {ints : List ℤ}
    (h : ∀ n ∈ ints, -fullScaleOf bitDepth - 1 ≤ n ∧ n ≤ fullScaleOf bitDepth) :
    normalizeSamples (ints.flatMap (pcmBytes bitDepth)) (bitDepth / 8) =
      .ok (ints.map fun (n : ℤ) => (n : ℚ) / (fullScaleOf bitDepth + 1)) := by
  rcases hdepth with rfl | rfl
  · have hscale : fullScaleOf 16 + 1 = 2 ^ 15 := rfl
    have hints : int16s (ints.flatMap (pcmBytes 16)) = ints :=
      decode_flatMap 2 rfl (fun _ _ => rfl) fun n hn => by
        have hn := h n hn
        omega
    have hpow : (2 : ℚ) ^ 15 = 32768 := by norm_num
    rw [← map_fl_div (by decide) hscale h, hpow]
    exact congrArg (fun ints : List ℤ => Except.ok (ints.map fun (n : ℤ) => fl (n / 32768))) hints
  · have hscale : fullScaleOf 24 + 1 = 2 ^ 23 := rfl
    have hints : int24s (ints.flatMap (pcmBytes 24)) = ints :=
      decode_flatMap 3 rfl (fun _ _ => rfl) fun n hn => by
        have hn := h n hn
        omega
    have hpow : (2 : ℚ) ^ 23 = 8388608 := by norm_num
    rw [← map_fl_div (by decide) hscale h, hpow]
    exact congrArg (fun ints : List ℤ => Except.ok (ints.map fun (n : ℤ) => fl (n / 8388608))) hints

end bytes

/-! ## Round Trips -/

section roundTrips

variable {Data : Type} (container : WaveContainer Data)

/-- The samples that are encoded are measured with their header and their number, and decoded to
values within one and a half steps of them, once they are clamped. -/
def RoundTrips (samples : List ℚ) (sampleRate channels bitDepth : ℕ) : Prop :=
  ∃ data file measurements decoded,
    encodeWav container (samples.map Sample.finite) sampleRate channels bitDepth = .ok data ∧
    measureWav container data = .ok measurements ∧
    measurements.sampleRate = sampleRate ∧
    measurements.channels = channels ∧
    measurements.sampleWidthBits = bitDepth ∧
    measurements.frameCount = samples.length / channels ∧
    openWav container data = .ok file ∧
    decodedSamples file = .ok decoded ∧
    List.Forall₂ (fun value decodedValue =>
      |decodedValue - max (-1) (min 1 value)| ≤ 3 / 2 * (1 / 2 ^ (bitDepth - 1))) samples decoded

variable {samples : List ℚ} {fullScale : ℤ} {sampleRate channels bitDepth : ℕ}

theorem toInt_finite (v : ℚ) (fullScale : ℤ) :
    toInt (.finite v) fullScale =
      if overflowBound ≤ |v * fullScale| then .error .overflow
      else .ok (quantised v fullScale) := rfl

theorem mapM_toInt_ok (h : ∀ v ∈ samples, |v * fullScale| < overflowBound) :
    (samples.map Sample.finite).mapM (fun value => toInt value fullScale) =
      .ok (samples.map fun v => quantised v fullScale) := by
  induction samples with
  | nil => rfl
  | cons v samples ih =>
    rw [List.map_cons, List.mapM_cons, toInt_finite,
      if_neg (not_le.mpr (h v List.mem_cons_self)), ih fun w hw => h w (List.mem_cons_of_mem _ hw)]
    rfl

theorem mapM_toInt_error {v : ℚ} (hv : v ∈ samples) (h : overflowBound ≤ |v * fullScale|) :
    (samples.map Sample.finite).mapM (fun value => toInt value fullScale) = .error .overflow := by
  induction samples with
  | nil => cases hv
  | cons w samples ih =>
    rw [List.map_cons, List.mapM_cons, toInt_finite]
    rcases List.mem_cons.mp hv with rfl | hmem
    · rw [if_pos h]
      rfl
    · rw [ih hmem]
      split_ifs <;> rfl

/-- What is written for samples that stay finite. -/
def encodedFile (samples : List ℚ) (sampleRate channels bitDepth : ℕ) : WaveFile where
  channels := channels
  sampleWidth := bitDepth / 8
  sampleRate := sampleRate
  frames := (samples.map fun v => quantised v (fullScaleOf bitDepth)).flatMap (pcmBytes bitDepth)

theorem encodeWav_ok (hsamples : samples ≠ []) (hdepth : bitDepth = 16 ∨ bitDepth = 24)
    (hfinite : ∀ v ∈ samples, |v * fullScaleOf bitDepth| < overflowBound) :
    encodeWav container (samples.map Sample.finite) sampleRate channels bitDepth =
      match container.write (encodedFile samples sampleRate channels bitDepth) with
      | some data => .ok data
      | none => .error .wave := by
  rw [encodeWav, if_neg (by omega), if_neg (by simpa using hsamples), mapM_toInt_ok hfinite]
  rfl

theorem encodeWav_error (hsamples : samples ≠ []) (hdepth : bitDepth = 16 ∨ bitDepth = 24) {v : ℚ}
    (hv : v ∈ samples) (hinfinite : overflowBound ≤ |v * fullScaleOf bitDepth|) :
    encodeWav container (samples.map Sample.finite) sampleRate channels bitDepth =
      .error .overflow := by
  rw [encodeWav, if_neg (by omega), if_neg (by simpa using hsamples),
    mapM_toInt_error hv hinfinite]
  rfl

section encodedFile

variable (sampleRate) (hdepth : bitDepth = 16 ∨ bitDepth = 24)
  (hmultiple : channels ∣ samples.length)

include hdepth

theorem length_frames_encodedFile :
    (encodedFile samples sampleRate channels bitDepth).frames.length =
      samples.length * (bitDepth / 8) := by
  rw [encodedFile, length_flatMap_pcmBytes hdepth, List.length_map]

theorem nframes_encodedFile :
    (encodedFile samples sampleRate channels bitDepth).nframes = samples.length / channels := by
  have hwidth : 0 < bitDepth / 8 := by omega
  rw [WaveFile.nframes, length_frames_encodedFile sampleRate hdepth]
  exact Nat.mul_div_mul_right _ _ hwidth

include hmultiple

theorem raw_encodedFile : (encodedFile samples sampleRate channels bitDepth).raw =
    (encodedFile samples sampleRate channels bitDepth).frames := by
  rw [WaveFile.raw, List.take_of_length_le]
  rw [nframes_encodedFile sampleRate hdepth, length_frames_encodedFile sampleRate hdepth]
  change _ ≤ samples.length / channels * (channels * (bitDepth / 8))
  rw [← Nat.mul_assoc, Nat.div_mul_cancel hmultiple]

theorem decodedSamples_encodedFile :
    decodedSamples (encodedFile samples sampleRate channels bitDepth) =
      .ok (samples.map fun v =>
        (quantised v (fullScaleOf bitDepth) : ℚ) / (fullScaleOf bitDepth + 1)) := by
  have hrange : ∀ n ∈ samples.map fun v => quantised v (fullScaleOf bitDepth),
      -fullScaleOf bitDepth - 1 ≤ n ∧ n ≤ fullScaleOf bitDepth := by
    intro n hn
    obtain ⟨v, -, rfl⟩ := List.mem_map.mp hn
    exact quantised_mem (isFullScale_fullScaleOf bitDepth) v
  rw [decodedSamples, raw_encodedFile sampleRate hdepth hmultiple]
  refine (normalizeSamples_flatMap hdepth hrange).trans ?_
  rw [List.map_map]
  rfl

end encodedFile

theorem frameMagnitudes_ne_nil {normalized : List ℚ} (hchannels : 1 ≤ channels)
    (h : channels ≤ normalized.length) : frameMagnitudes normalized channels ≠ [] := by
  unfold frameMagnitudes
  split_ifs with hone
  · rw [ne_eq, List.map_eq_nil_iff, ← List.length_eq_zero_iff]
    omega
  · have hpos := Nat.div_pos h hchannels
    rw [ne_eq, List.map_eq_nil_iff, List.range_eq_nil]
    omega

theorem measureFile_ok {file : WaveFile} {normalized : List ℚ}
    (hdecoded : decodedSamples file = .ok normalized) (hrate : 1 ≤ file.sampleRate)
    (hchannels : 1 ≤ file.channels) (hnframes : 0 < file.nframes)
    (hlength : file.channels ≤ normalized.length) :
    measureFile file = .ok (measure file normalized) := by
  have hsamples : normalized ≠ [] := by
    rintro rfl
    exact absurd hchannels (Nat.not_le_of_lt (Nat.lt_succ_of_le hlength))
  have hmagnitudes := frameMagnitudes_ne_nil hchannels hlength
  rw [measureFile, if_neg (by omega), hdecoded]
  refine (if_neg (by simpa using hsamples)).trans ?_
  exact if_neg (by simpa using hmagnitudes)

theorem two_pow_eq (hdepth : bitDepth = 16 ∨ bitDepth = 24) :
    (2 : ℚ) ^ (bitDepth - 1) = fullScaleOf bitDepth + 1 := by
  rcases hdepth with rfl | rfl <;> norm_num [fullScaleOf]

/-- Samples round-trip if and only if all of them stay finite when they are scaled. -/
theorem roundTrips_iff (hsamples : samples ≠ []) (hchannels : 1 ≤ channels)
    (hmultiple : channels ∣ samples.length) (hrate : 1 ≤ sampleRate)
    (hdepth : bitDepth = 16 ∨ bitDepth = 24)
    (hfaithful : container.Faithful channels (bitDepth / 8) sampleRate) :
    RoundTrips container samples sampleRate channels bitDepth ↔
      ∀ v ∈ samples, |v * fullScaleOf bitDepth| < overflowBound := by
  constructor
  · rintro ⟨data, -, -, -, hencode, -⟩ v hv
    by_contra hinfinite
    rw [encodeWav_error container hsamples hdepth hv (not_lt.mp hinfinite)] at hencode
    cases hencode
  · intro hfinite
    obtain ⟨data, hwrite, hread⟩ :=
      hfaithful (encodedFile samples sampleRate channels bitDepth).frames
    have hwrite : container.write (encodedFile samples sampleRate channels bitDepth) = some data :=
      hwrite
    have hopen : openWav container data =
        .ok (encodedFile samples sampleRate channels bitDepth) := by
      rw [openWav, hread]
      rfl
    have hdecoded := decodedSamples_encodedFile sampleRate hdepth hmultiple
    have hnframes : (encodedFile samples sampleRate channels bitDepth).nframes =
        samples.length / channels := nframes_encodedFile sampleRate hdepth
    have hlength : channels ≤ samples.length :=
      Nat.le_of_dvd (List.length_pos_of_ne_nil hsamples) hmultiple
    -- the header is not degenerate, since there is a whole frame
    have hmeasured := measureFile_ok hdecoded hrate hchannels
      (hnframes ▸ Nat.div_pos hlength hchannels) (by rwa [List.length_map])
    have hmeasureWav := (congrArg (· >>= measureFile) hopen).trans hmeasured
    refine ⟨data, _, _, _, ?encoded, hmeasureWav, rfl, rfl, ?width, hnframes, hopen, hdecoded,
      ?close⟩
    case encoded => rw [encodeWav_ok container hsamples hdepth hfinite, hwrite]
    case width =>
      change bitDepth / 8 * 8 = bitDepth
      omega
    case close =>
      rw [List.forall₂_map_right_iff, List.forall₂_same]
      intro v _
      rw [two_pow_eq hdepth]
      exact abs_quantised_sub_le (isFullScale_fullScaleOf bitDepth) v

end roundTrips

/-! ## A Sample That Is Too Large -/

def plainContainer : WaveContainer WaveFile where
  write := some
  read := .ok

theorem roundTrips_stereo : RoundTrips plainContainer [1 / 2, -1] 24000 2 24 :=
  (roundTrips_iff plainContainer (by decide) (by decide) (by decide) (by decide) (by decide)
    fun frames => ⟨_, rfl, rfl⟩).mpr (by decide +kernel)

theorem not_forall_roundTrips :
    ¬ ∀ (Data : Type) (container : WaveContainer Data) (samples : List ℚ)
      (sampleRate channels bitDepth : ℕ), samples ≠ [] → 1 ≤ channels →
        channels ∣ samples.length → 1 ≤ sampleRate → bitDepth = 16 ∨ bitDepth = 24 →
          container.Faithful channels (bitDepth / 8) sampleRate →
            RoundTrips container samples sampleRate channels bitDepth := by
  intro h
  obtain ⟨data, -, -, -, hencode, -⟩ := h WaveFile plainContainer [2 ^ 1023] 24000 1 16 (by decide)
    (by decide) (by decide) (by decide) (by decide) fun frames => ⟨_, rfl, rfl⟩
  have hinfinite : overflowBound ≤ |(2 ^ 1023 : ℚ) * fullScaleOf 16| := by decide +kernel
  have herror := hencode.symm.trans (encodeWav_error plainContainer
    (List.cons_ne_nil (2 ^ 1023 : ℚ) []) (.inl rfl) List.mem_cons_self hinfinite)
  cases herror

end AudioBook.WaveAudio
