import AudioBook.Director.PronunciationHints
import AudioBook.Editing.ChunkEdits
import AudioBook.Numerics.BinaryRounding
import AudioBook.Semantic.Deterministic

/-!
# Negotiating Capabilities

`negotiate`: what the Director asked for against what an engine can do. The result has the controls
to render with, and the gaps: the instructions that the engine does not take. Numbers are doubles;
the values of an intent are finite.

Main results:

- `accounted_negotiate`: every instruction that is given and not taken has its gap, and no other
  has one; a control that the engine does not have is moved by approximations only.
-/

namespace AudioBook.Capability

open Numerics
open ChunkEdits (Pause Emphasis NonVerbal)

/-! ## Contracts -/

inductive CapabilityHandling
  | native
  | approximated
  | unsupported
  deriving DecidableEq

def CapabilityHandling.value : CapabilityHandling → Text
  | native => "NATIVE".toList
  | approximated => "APPROXIMATED".toList
  | unsupported => "UNSUPPORTED".toList

inductive EmotionControl
  | none
  | tags
  | conditioning
  deriving DecidableEq

/-- `ProviderCapabilities`, as far as `negotiate` reads it. -/
structure ProviderCapabilities where
  languages : List Text
  maxInputChars : ℕ
  emotionControl : EmotionControl
  supportsPitchControl : Bool
  supportsSpeedControl : Bool
  supportsSsml : Bool
  supportsPhonemeInput : Bool

/-- `language.split("-", 1)[0]`. -/
def primaryTag (language : Text) : Text := language.takeWhile fun c => decide (c ≠ '-')

def ProviderCapabilities.supportsLanguage (capabilities : ProviderCapabilities) (language : Text) :
    Bool :=
  decide (['*'] ∈ capabilities.languages) || decide (language ∈ capabilities.languages) ||
    capabilities.languages.any fun tag =>
      decide (tag = primaryTag language ∨ primaryTag tag = primaryTag language)

def neutral : Text := "NEUTRAL".toList

/-- The delivery mode that is no instruction. -/
def normal : Text := "NORMAL".toList

/-- `PerformanceIntent`, less the speaker. -/
structure PerformanceIntent where
  deliveryMode : Text := normal
  emotion : Text := neutral
  emotionIntensity : ℚ := 0
  pacing : ℚ := 1
  pitch : ℚ := 0
  volume : ℚ := 0
  pauses : List Pause := []
  emphasis : List Emphasis := []
  pronunciationHints : List Direction.PronunciationHint := []
  nonVerbal : List NonVerbal := []

inductive Instruction
  | emotion
  | deliveryMode
  | pacing
  | pitch
  | volume
  | pronunciationHints
  | emphasis
  | nonVerbal
  | pauses
  deriving DecidableEq

/-- `CapabilityGap`; the field is the instruction that it is about. -/
structure CapabilityGap where
  field : Instruction
  requested : Text
  handling : CapabilityHandling
  note : String
  deriving DecidableEq

structure SynthesisControls where
  speed : ℚ
  pitchSemitones : ℚ
  gainDb : ℚ
  emotion : Text
  emotionIntensity : ℚ
  deliveryMode : Text
  styleTags : List Text
  deriving DecidableEq

/-- `Negotiation`, less what is the same for every intent. -/
structure Negotiation where
  controls : SynthesisControls
  gaps : List CapabilityGap
  deriving DecidableEq

/-- A `TtsError` that `negotiate` raises. -/
structure NegotiationError where
  code : TtsErrorCode
  message : Text
  note : Option String := none

/-! ## Approximations -/

structure Prosody where
  speed : ℚ
  pitch : ℚ
  gain : ℚ

def emotionProsody : List (Text × Prosody) :=
  [("NEUTRAL", ⟨1, 0, 0⟩),
    ("HAPPY", ⟨fl (106 / 100), fl (8 / 10), fl (7 / 10)⟩),
    ("SAD", ⟨fl (92 / 100), fl (-8 / 10), fl (-12 / 10)⟩),
    ("GRIEF", ⟨fl (86 / 100), fl (-12 / 10), fl (-18 / 10)⟩),
    ("ANGRY", ⟨fl (108 / 100), fl (6 / 10), fl (16 / 10)⟩),
    ("FEARFUL", ⟨fl (110 / 100), 1, fl (-6 / 10)⟩),
    ("SURPRISED", ⟨fl (109 / 100), fl (14 / 10), fl (9 / 10)⟩),
    ("DISGUSTED", ⟨fl (95 / 100), fl (-4 / 10), fl (3 / 10)⟩),
    ("EXCITED", ⟨fl (112 / 100), fl (12 / 10), fl (12 / 10)⟩),
    ("CALM", ⟨fl (95 / 100), fl (-3 / 10), fl (-4 / 10)⟩),
    ("TENSE", ⟨fl (104 / 100), fl (4 / 10), fl (4 / 10)⟩),
    ("ANXIOUS", ⟨fl (109 / 100), fl (7 / 10), fl (-3 / 10)⟩),
    ("SOMBER", ⟨fl (90 / 100), fl (-9 / 10), -1⟩),
    ("CONFIDENT", ⟨1, fl (-2 / 10), fl (8 / 10)⟩),
    ("UNCERTAIN", ⟨fl (94 / 100), fl (3 / 10), fl (-7 / 10)⟩),
    ("PLAYFUL", ⟨fl (105 / 100), fl (9 / 10), fl (4 / 10)⟩),
    ("SERIOUS", ⟨fl (97 / 100), fl (-4 / 10), fl (2 / 10)⟩)].map
      fun row => (row.1.toList, row.2)

def deliveryProsody : List (Text × Prosody) :=
  [("NORMAL", ⟨1, 0, 0⟩),
    ("INTERNAL_THOUGHT", ⟨fl (95 / 100), fl (-3 / 10), -2⟩),
    ("WHISPER", ⟨fl (93 / 100), -1 / 2, -6⟩),
    ("SHOUT", ⟨fl (105 / 100), 1, 4⟩),
    ("LAUGHING", ⟨fl (105 / 100), fl (8 / 10), 1 / 2⟩),
    ("CRYING", ⟨fl (88 / 100), fl (-6 / 10), -1⟩),
    ("SINGING", ⟨fl (95 / 100), 0, 1 / 2⟩),
    ("READING_ALOUD", ⟨fl (98 / 100), 0, 0⟩)].map fun row => (row.1.toList, row.2)

/-- `table.get(key, (1.0, 0.0, 0.0))`. -/
def prosodyOf (table : List (Text × Prosody)) (key : Text) : Prosody :=
  (table.lookup key).getD ⟨1, 0, 0⟩

def emotionHandling (capabilities : ProviderCapabilities) (declared : Option Text) :
    CapabilityHandling :=
  if declared = some CapabilityHandling.unsupported.value then .unsupported
  else if capabilities.emotionControl = .none then .approximated
  else if declared = some CapabilityHandling.native.value then .native
  else if declared = some CapabilityHandling.approximated.value then .approximated
  else .native

/-! ## Negotiation -/

/-- `_round`. -/
def quantise (value : ℚ) : ℚ := binary64.roundDecimals 3 value

/-- `max(lo, min(hi, value))`. -/
def clamp (lo hi value : ℚ) : ℚ := max lo (min hi value)

/-- `f"{value:.2f}"`. -/
def fixed2 (value : ℚ) : Text :=
  let hundredths := (roundEven (|value| * 100)).toNat
  (if value < 0 then ['-'] else []) ++ Nat.toDigits 10 (hundredths / 100) ++
    ['.', Nat.digitChar (hundredths / 10 % 10), Nat.digitChar (hundredths % 10)]

/-- `f"{len(items)} {noun}"`. -/
def counted (n : ℕ) (noun : String) : Text := Nat.toDigits 10 n ++ ' ' :: noun.toList

section negotiate

variable (u : PythonText) (capabilities : ProviderCapabilities)
  (emotionCapabilityMap : List (Text × Text)) (performance : PerformanceIntent)

/-- `intensity`. -/
def intensityOf : ℚ := clamp 0 1 performance.emotionIntensity

/-- How the emotion of the intent is handled; none for a neutral one. -/
def handlingOf : Option CapabilityHandling :=
  if performance.emotion = neutral then none
  else some (emotionHandling capabilities (emotionCapabilityMap.lookup performance.emotion))

/-- What an approximated emotion does to the neutral controls. -/
def emotionPass : Prosody :=
  match handlingOf capabilities emotionCapabilityMap performance with
  | none | some .native => ⟨1, 0, 0⟩
  | some _ =>
      let e := prosodyOf emotionProsody performance.emotion
      let intensity := intensityOf performance
      ⟨fl (1 + fl (fl (e.speed - 1) * intensity)), fl (e.pitch * intensity),
        fl (e.gain * intensity)⟩

/-- What the delivery mode then does to them: `speed`, `pitch` and `gain` after both passes. -/
def approximation : Prosody :=
  let p := emotionPass capabilities emotionCapabilityMap performance
  if performance.deliveryMode ≠ normal then
    let d := prosodyOf deliveryProsody performance.deliveryMode
    ⟨fl (p.speed * d.speed), fl (p.pitch + d.pitch), fl (p.gain + d.gain)⟩
  else p

def styleTags : List Text :=
  match handlingOf capabilities emotionCapabilityMap performance with
  | some .native => ["emotion:".toList ++ u.lower performance.emotion]
  | _ => []

def emotionGaps : List CapabilityGap :=
  match handlingOf capabilities emotionCapabilityMap performance with
  | none | some .native => []
  | some handling => [⟨.emotion, performance.emotion, handling,
      if handling = .approximated then
        "prosody approximation (speed+pitch+gain), scaled by intensity"
      else
        "declared unsupported for this voice; rendered with neutral prosody, intent recorded"⟩]

def deliveryGaps : List CapabilityGap :=
  if performance.deliveryMode ≠ normal then
    [⟨.deliveryMode, performance.deliveryMode, .approximated, "volume+pacing approximation"⟩]
  else []

def pacingGaps : List CapabilityGap :=
  if performance.pacing ≠ 1 ∧ capabilities.supportsSpeedControl = false then
    [⟨.pacing, fixed2 performance.pacing, .unsupported,
      "provider exposes no speed control; rate left at the engine's natural pace"⟩]
  else []

def pitchGaps : List CapabilityGap :=
  if performance.pitch ≠ 0 ∧ capabilities.supportsPitchControl = false then
    [⟨.pitch, fixed2 performance.pitch, .unsupported, "provider exposes no pitch control"⟩]
  else []

def volumeGaps : List CapabilityGap :=
  if performance.volume ≠ 0 then
    [⟨.volume, fixed2 performance.volume, .approximated,
      "level intent deferred to audio processing (tts-provider-spec §25.1)"⟩]
  else []

def pronunciationGaps : List CapabilityGap :=
  if performance.pronunciationHints ≠ [] ∧
      (capabilities.supportsPhonemeInput || capabilities.supportsSsml) = false then
    [⟨.pronunciationHints, counted performance.pronunciationHints.length "hint(s)", .unsupported,
      "provider accepts neither phonemes nor SSML; engine's built-in pronunciation used"⟩]
  else []

def emphasisGaps : List CapabilityGap :=
  if performance.emphasis ≠ [] ∧ capabilities.supportsSsml = false then
    [⟨.emphasis, counted performance.emphasis.length "span(s)", .unsupported,
      "provider exposes no emphasis markup"⟩]
  else []

def nonVerbalGaps : List CapabilityGap :=
  if performance.nonVerbal ≠ [] then
    [⟨.nonVerbal, counted performance.nonVerbal.length "event(s)", .unsupported,
      "no provider-neutral non-verbal control exists in ProviderCapabilities"⟩]
  else []

/-- `gaps`, in the order in which they are appended. -/
def capabilityGaps : List CapabilityGap :=
  emotionGaps capabilities emotionCapabilityMap performance ++ deliveryGaps performance ++
    pacingGaps capabilities performance ++ pitchGaps capabilities performance ++
    volumeGaps performance ++ pronunciationGaps capabilities performance ++
    emphasisGaps capabilities performance ++ nonVerbalGaps performance

/-- `speed`, after all passes. -/
def speedOf : ℚ :=
  let p := approximation capabilities emotionCapabilityMap performance
  if performance.pacing ≠ 1 ∧ capabilities.supportsSpeedControl then
    fl (p.speed * performance.pacing)
  else p.speed

/-- `pitch`, after all passes. -/
def pitchOf : ℚ :=
  let p := approximation capabilities emotionCapabilityMap performance
  if performance.pitch ≠ 0 ∧ capabilities.supportsPitchControl then
    fl (p.pitch + fl (performance.pitch * 4))
  else p.pitch

/-- The `SynthesisControls` of an intent. -/
def controlsOf : SynthesisControls where
  speed := quantise (clamp (1 / 4) 4 (speedOf capabilities emotionCapabilityMap performance))
  pitchSemitones :=
    quantise (clamp (-12) 12 (pitchOf capabilities emotionCapabilityMap performance))
  gainDb :=
    quantise (clamp (-24) 12 (approximation capabilities emotionCapabilityMap performance).gain)
  emotion := performance.emotion
  emotionIntensity := quantise (intensityOf performance)
  deliveryMode := performance.deliveryMode
  styleTags := styleTags u capabilities emotionCapabilityMap performance

def negotiate (language : Text) (textLength : ℕ) : Except NegotiationError Negotiation :=
  if capabilities.supportsLanguage language = false then
    .error ⟨.voiceLanguageMismatch,
      "Provider does not support language '".toList ++ language ++ "'.".toList, none⟩
  else if capabilities.maxInputChars < textLength then
    .error ⟨.unsupportedTtsCapability,
      "Chunk of ".toList ++ Nat.toDigits 10 textLength ++
        " chars exceeds the provider's ".toList ++ Nat.toDigits 10 capabilities.maxInputChars ++
        "-char ceiling.".toList,
      some "Re-chunk upstream (audio-script-ir.md §10.3); do not truncate or split here."⟩
  else
    .ok ⟨controlsOf u capabilities emotionCapabilityMap performance,
      capabilityGaps capabilities emotionCapabilityMap performance⟩

end negotiate

/-! ## What Becomes of an Instruction -/

section instructions

variable (u : PythonText) (capabilities : ProviderCapabilities)
  (emotionCapabilityMap : List (Text × Text)) (performance : PerformanceIntent)

namespace Instruction

def NonDefault : Instruction → Prop
  | emotion => performance.emotion ≠ neutral
  | deliveryMode => performance.deliveryMode ≠ normal
  | pacing => performance.pacing ≠ 1
  | pitch => performance.pitch ≠ 0
  | volume => performance.volume ≠ 0
  | pronunciationHints => performance.pronunciationHints ≠ []
  | emphasis => performance.emphasis ≠ []
  | nonVerbal => performance.nonVerbal ≠ []
  | pauses => performance.pauses ≠ []

/-- Somebody takes the instruction as it is: the engine, or for pauses the audio processing. -/
def Taken : Instruction → Prop
  | emotion => emotionHandling capabilities
      (emotionCapabilityMap.lookup performance.emotion) = .native
  | pacing => capabilities.supportsSpeedControl = true
  | pitch => capabilities.supportsPitchControl = true
  | pronunciationHints => (capabilities.supportsPhonemeInput || capabilities.supportsSsml) = true
  | emphasis => capabilities.supportsSsml = true
  | pauses => True
  | deliveryMode | volume | nonVerbal => False

def requested : Instruction → Text
  | emotion => performance.emotion
  | deliveryMode => performance.deliveryMode
  | pacing => fixed2 performance.pacing
  | pitch => fixed2 performance.pitch
  | volume => fixed2 performance.volume
  | pronunciationHints => counted performance.pronunciationHints.length "hint(s)"
  | emphasis => counted performance.emphasis.length "span(s)"
  | nonVerbal => counted performance.nonVerbal.length "event(s)"
  | pauses => []

end Instruction

/-- Neither the emotion nor the delivery mode is approximated. -/
def Unapproximated : Prop :=
  (Instruction.emotion.NonDefault performance →
      Instruction.emotion.Taken capabilities emotionCapabilityMap performance) ∧
    ¬ Instruction.deliveryMode.NonDefault performance

/-- What becomes of the instructions of an intent. -/
structure Accounted (n : Negotiation) : Prop where
  /-- A gap is recorded for the instructions that are given and not taken, and for no other. -/
  gaps : ∀ i : Instruction, (∃ gap ∈ n.gaps, gap.field = i) ↔
    i.NonDefault performance ∧ ¬ i.Taken capabilities emotionCapabilityMap performance
  once : (n.gaps.map CapabilityGap.field).Nodup
  requested : ∀ gap ∈ n.gaps, gap.requested = gap.field.requested performance
  /-- The emotion and the delivery mode are handed on. -/
  named : n.controls.emotion = performance.emotion ∧
    n.controls.deliveryMode = performance.deliveryMode
  tagged : Instruction.emotion.NonDefault performance →
    Instruction.emotion.Taken capabilities emotionCapabilityMap performance →
      "emotion:".toList ++ u.lower performance.emotion ∈ n.controls.styleTags
  /-- Pacing that is taken multiplies the approximated speed; the range of the control clamps it. -/
  paced : Instruction.pacing.NonDefault performance →
    Instruction.pacing.Taken capabilities emotionCapabilityMap performance →
      n.controls.speed = quantise (clamp (1 / 4) 4 (fl
        ((approximation capabilities emotionCapabilityMap performance).speed *
          performance.pacing)))
  /-- Pitch that is taken is added to the approximated pitch, four semitones to the unit. -/
  pitched : Instruction.pitch.NonDefault performance →
    Instruction.pitch.Taken capabilities emotionCapabilityMap performance →
      n.controls.pitchSemitones = quantise (clamp (-12) 12 (fl
        ((approximation capabilities emotionCapabilityMap performance).pitch +
          fl (performance.pitch * 4))))
  /-- Without a speed control only approximations move the speed. -/
  neutralSpeed : capabilities.supportsSpeedControl = false →
    Unapproximated capabilities emotionCapabilityMap performance → n.controls.speed = 1
  /-- Without a pitch control only approximations move the pitch. -/
  neutralPitch : capabilities.supportsPitchControl = false →
    Unapproximated capabilities emotionCapabilityMap performance →
      n.controls.pitchSemitones = 0

end instructions

variable {u : PythonText} {capabilities : ProviderCapabilities}
  {emotionCapabilityMap : List (Text × Text)} {performance : PerformanceIntent}

theorem approximation_of_unapproximated
    (h : Unapproximated capabilities emotionCapabilityMap performance) :
    approximation capabilities emotionCapabilityMap performance = ⟨1, 0, 0⟩ := by
  obtain ⟨hemotion, hdelivery⟩ := h
  have hpass : emotionPass capabilities emotionCapabilityMap performance = ⟨1, 0, 0⟩ := by
    unfold emotionPass handlingOf
    split_ifs with hneutral
    · rfl
    · rw [show emotionHandling capabilities (emotionCapabilityMap.lookup performance.emotion) =
        .native from hemotion hneutral]
  have hnormal : ¬ performance.deliveryMode ≠ normal := hdelivery
  rw [approximation, if_neg hnormal, hpass]

variable (capabilities emotionCapabilityMap performance) in
def gapsOf : Instruction → List CapabilityGap
  | .emotion => emotionGaps capabilities emotionCapabilityMap performance
  | .deliveryMode => deliveryGaps performance
  | .pacing => pacingGaps capabilities performance
  | .pitch => pitchGaps capabilities performance
  | .volume => volumeGaps performance
  | .pronunciationHints => pronunciationGaps capabilities performance
  | .emphasis => emphasisGaps capabilities performance
  | .nonVerbal => nonVerbalGaps performance
  | .pauses => []

def instructions : List Instruction :=
  [.emotion, .deliveryMode, .pacing, .pitch, .volume, .pronunciationHints, .emphasis, .nonVerbal,
    .pauses]

theorem capabilityGaps_eq :
    capabilityGaps capabilities emotionCapabilityMap performance =
      instructions.flatMap (gapsOf capabilities emotionCapabilityMap performance) := by
  simp [capabilityGaps, instructions, gapsOf]

/-- A gap of an instruction, where it is given and not taken. -/
structure IsGapOf (capabilities : ProviderCapabilities) (emotionCapabilityMap : List (Text × Text))
    (performance : PerformanceIntent) (i : Instruction) (gap : CapabilityGap) : Prop where
  field : gap.field = i
  requested : gap.requested = i.requested performance
  given : i.NonDefault performance
  notTaken : ¬ i.Taken capabilities emotionCapabilityMap performance

theorem gaps_ite_spec {i : Instruction} {gap : CapabilityGap} {c : Prop} [Decidable c]
    (hc : c ↔ i.NonDefault performance ∧ ¬ i.Taken capabilities emotionCapabilityMap performance)
    (hfield : gap.field = i) (hrequested : gap.requested = i.requested performance) :
    (∃ gap', (if c then [gap] else []) = [gap'] ∧
        IsGapOf capabilities emotionCapabilityMap performance i gap') ∨
      ((if c then [gap] else []) = [] ∧ ¬ (i.NonDefault performance ∧
        ¬ i.Taken capabilities emotionCapabilityMap performance)) := by
  by_cases h : c
  · obtain ⟨hgiven, hnot⟩ := hc.mp h
    exact .inl ⟨gap, if_pos h, hfield, hrequested, hgiven, hnot⟩
  · exact .inr ⟨if_neg h, fun hgiven => h (hc.mpr hgiven)⟩

variable (capabilities emotionCapabilityMap performance) in
theorem gapsOf_spec (i : Instruction) :
    (∃ gap, gapsOf capabilities emotionCapabilityMap performance i = [gap] ∧
        IsGapOf capabilities emotionCapabilityMap performance i gap) ∨
      (gapsOf capabilities emotionCapabilityMap performance i = [] ∧
        ¬ (i.NonDefault performance ∧
          ¬ i.Taken capabilities emotionCapabilityMap performance)) := by
  cases i with
  | emotion =>
    simp only [gapsOf, emotionGaps, handlingOf]
    by_cases hneutral : performance.emotion = neutral
    · exact .inr ⟨by simp [hneutral], fun h => h.1 hneutral⟩
    · have htaken : Instruction.emotion.Taken capabilities emotionCapabilityMap performance ↔
          emotionHandling capabilities (emotionCapabilityMap.lookup performance.emotion) =
            .native := Iff.rfl
      rw [if_neg hneutral]
      cases hhandling : emotionHandling capabilities
          (emotionCapabilityMap.lookup performance.emotion) with
      | native => exact .inr ⟨rfl, fun h => h.2 (htaken.mpr hhandling)⟩
      | approximated =>
        exact .inl ⟨_, rfl, rfl, rfl, hneutral, by rw [htaken, hhandling]; nofun⟩
      | unsupported =>
        exact .inl ⟨_, rfl, rfl, rfl, hneutral, by rw [htaken, hhandling]; nofun⟩
  -- nothing takes a delivery mode, a volume or non-verbal events
  | deliveryMode => exact gaps_ite_spec (and_iff_left id).symm rfl rfl
  | volume => exact gaps_ite_spec (and_iff_left id).symm rfl rfl
  | nonVerbal => exact gaps_ite_spec (and_iff_left id).symm rfl rfl
  -- a control takes these, where the engine has it
  | pacing => exact gaps_ite_spec (and_congr_right' Bool.eq_false_iff) rfl rfl
  | pitch => exact gaps_ite_spec (and_congr_right' Bool.eq_false_iff) rfl rfl
  | pronunciationHints => exact gaps_ite_spec (and_congr_right' Bool.eq_false_iff) rfl rfl
  | emphasis => exact gaps_ite_spec (and_congr_right' Bool.eq_false_iff) rfl rfl
  | pauses => exact .inr ⟨rfl, fun h => h.2 trivial⟩

theorem isGapOf_of_mem {i : Instruction} {gap : CapabilityGap}
    (h : gap ∈ gapsOf capabilities emotionCapabilityMap performance i) :
    IsGapOf capabilities emotionCapabilityMap performance i gap := by
  rcases gapsOf_spec capabilities emotionCapabilityMap performance i with
    ⟨gap', heq, hgap⟩ | ⟨heq, -⟩
  · rw [heq, List.mem_singleton] at h
    exact h ▸ hgap
  · rw [heq] at h
    cases h

theorem mem_instructions (i : Instruction) : i ∈ instructions := by
  cases i <;> decide

theorem fields_sublist (is : List Instruction) :
    ((is.flatMap (gapsOf capabilities emotionCapabilityMap performance)).map
      CapabilityGap.field).Sublist is := by
  induction is with
  | nil => exact .refl _
  | cons i is ih =>
    rw [List.flatMap_cons, List.map_append]
    rcases gapsOf_spec capabilities emotionCapabilityMap performance i with
      ⟨gap, heq, hgap⟩ | ⟨heq, -⟩
    · rw [heq, List.map_singleton, hgap.field]
      exact ih.cons_cons i
    · rw [heq]
      exact ih.cons i

/-- Nothing is discarded silently, and no control is invented. -/
theorem accounted_negotiate (language : Text) (textLength : ℕ) {n : Negotiation}
    (h : negotiate u capabilities emotionCapabilityMap performance language textLength = .ok n) :
    Accounted u capabilities emotionCapabilityMap performance n := by
  unfold negotiate at h
  split_ifs at h
  obtain rfl := Except.ok.inj h
  exact {
    gaps := by
      intro i
      -- the gaps are those of the instructions in turn, and each has at most one
      simp only [capabilityGaps_eq, List.mem_flatMap]
      constructor
      · rintro ⟨gap, ⟨i', -, hgap⟩, rfl⟩
        have hof := isGapOf_of_mem hgap
        rw [hof.field]
        exact ⟨hof.given, hof.notTaken⟩
      · intro hgiven
        rcases gapsOf_spec capabilities emotionCapabilityMap performance i with
          ⟨gap, heq, hgap⟩ | ⟨-, hnot⟩
        · exact ⟨gap, ⟨i, mem_instructions i, heq ▸ List.mem_singleton_self gap⟩, hgap.field⟩
        · exact absurd hgiven hnot
    once := by
      rw [capabilityGaps_eq]
      exact (by decide : instructions.Nodup).sublist (fields_sublist _)
    requested := by
      intro gap hgap
      rw [capabilityGaps_eq, List.mem_flatMap] at hgap
      obtain ⟨i, -, hmem⟩ := hgap
      have hof := isGapOf_of_mem hmem
      rw [hof.requested, hof.field]
    named := ⟨rfl, rfl⟩
    tagged := by
      intro hgiven htaken
      have hhandling : handlingOf capabilities emotionCapabilityMap performance = some .native := by
        rw [handlingOf, if_neg hgiven]
        exact congrArg some htaken
      simp [controlsOf, styleTags, hhandling]
    paced := by
      intro hgiven htaken
      simp only [controlsOf, speedOf]
      rw [if_pos ⟨hgiven, htaken⟩]
    pitched := by
      intro hgiven htaken
      simp only [controlsOf, pitchOf]
      rw [if_pos ⟨hgiven, htaken⟩]
    neutralSpeed := by
      intro hspeed hplain
      -- what is left to clamp and quantise is the neutral value
      simp only [controlsOf, speedOf, hspeed, approximation_of_unapproximated hplain]
      rw [if_neg fun h => Bool.false_ne_true h.2]
      decide +kernel
    neutralPitch := by
      intro hpitch hplain
      simp only [controlsOf, pitchOf, hpitch, approximation_of_unapproximated hplain]
      rw [if_neg fun h => Bool.false_ne_true h.2]
      decide +kernel }

/-! ## What Is Neither Reflected Nor Recorded -/

def engine (controls : Bool) : ProviderCapabilities where
  languages := ["en-US".toList]
  maxInputChars := 500
  emotionControl := .none
  supportsPitchControl := controls
  supportsSpeedControl := controls
  supportsSsml := controls
  supportsPhonemeInput := controls

theorem accounted_negotiate_whisper :
    Accounted asciiText (engine true) [] { deliveryMode := "WHISPER".toList, pacing := 2 }
      ⟨controlsOf asciiText (engine true) [] { deliveryMode := "WHISPER".toList, pacing := 2 },
        capabilityGaps (engine true) [] { deliveryMode := "WHISPER".toList, pacing := 2 }⟩ :=
  accounted_negotiate "en-US".toList 10 rfl

def Instruction.ReflectedIn (performance : PerformanceIntent) (controls : SynthesisControls) :
    Instruction → Prop
  | emotion => controls.emotion = performance.emotion
  | deliveryMode => controls.deliveryMode = performance.deliveryMode
  | pacing => controls.speed = performance.pacing
  | pitch => controls.pitchSemitones = performance.pitch * 4
  -- there is no control for the others
  | volume | pronunciationHints | emphasis | nonVerbal | pauses => False

/-- An instruction that is given is reflected in the controls, or appears in the gaps. -/
def Instruction.HonouredOrRecorded (i : Instruction) : Prop :=
  ∀ (u : PythonText) (capabilities : ProviderCapabilities)
    (emotionCapabilityMap : List (Text × Text)) (performance : PerformanceIntent)
    (language : Text) (textLength : ℕ) (n : Negotiation),
    negotiate u capabilities emotionCapabilityMap performance language textLength = .ok n →
      i.NonDefault performance →
        i.ReflectedIn performance n.controls ∨ ∃ gap ∈ n.gaps, gap.field = i

/-- The speed and the pitch are neutral where the engine has no control for them. -/
def UnsupportedLeftNeutral : Prop :=
  ∀ (u : PythonText) (capabilities : ProviderCapabilities)
    (emotionCapabilityMap : List (Text × Text)) (performance : PerformanceIntent)
    (language : Text) (textLength : ℕ) (n : Negotiation),
    negotiate u capabilities emotionCapabilityMap performance language textLength = .ok n →
      (capabilities.supportsSpeedControl = false → n.controls.speed = 1) ∧
        (capabilities.supportsPitchControl = false → n.controls.pitchSemitones = 0)

theorem not_honouredOrRecorded {i : Instruction} (performance : PerformanceIntent)
    (hgiven : i.NonDefault performance)
    (hgaps : capabilityGaps (engine true) [] performance = [])
    (hnot : ¬ i.ReflectedIn performance (controlsOf asciiText (engine true) [] performance)) :
    ¬ i.HonouredOrRecorded := by
  intro h
  rcases h asciiText (engine true) [] performance "en-US".toList 10 _ rfl hgiven with
    hreflected | ⟨gap, hgap, -⟩
  · exact hnot hreflected
  · simp only [hgaps] at hgap
    cases hgap

/-- Pauses are left to the audio processing and markup to the engine, the controls have a range, and
approximations do not ask for a control. -/
theorem not_forall_honoursOrRecords :
    ¬ Instruction.pauses.HonouredOrRecorded ∧ ¬ Instruction.emphasis.HonouredOrRecorded ∧
      ¬ Instruction.pronunciationHints.HonouredOrRecorded ∧
      ¬ Instruction.pacing.HonouredOrRecorded ∧ ¬ Instruction.pitch.HonouredOrRecorded ∧
      ¬ UnsupportedLeftNeutral := by
  refine ⟨?pauses, ?emphasis, ?hints, ?pacing, ?pitch, ?neutral⟩
  case pauses =>
    let performance : PerformanceIntent :=
      { pauses := [{ position := "LEADING", durationMs := 350 }] }
    have hgaps : capabilityGaps (engine true) [] performance = [] := by decide +kernel
    exact not_honouredOrRecorded performance (List.cons_ne_nil _ _) hgaps id
  case emphasis =>
    let performance : PerformanceIntent :=
      { emphasis := [{ offsetChars := 0, lengthChars := 4, strength := 1 }] }
    have hgaps : capabilityGaps (engine true) [] performance = [] := by decide +kernel
    exact not_honouredOrRecorded performance (List.cons_ne_nil _ _) hgaps id
  case hints =>
    let performance : PerformanceIntent :=
      { pronunciationHints := [⟨0, 4, none, none, .properNoun⟩] }
    have hgaps : capabilityGaps (engine true) [] performance = [] := by decide +kernel
    exact not_honouredOrRecorded performance (List.cons_ne_nil _ _) hgaps id
  case pacing =>
    have hgaps : capabilityGaps (engine true) [] { pacing := 8 } = [] := by decide +kernel
    have hgiven : (8 : ℚ) ≠ 1 := by decide
    have hspeed : (controlsOf asciiText (engine true) [] { pacing := 8 }).speed ≠ 8 := by
      decide +kernel
    exact not_honouredOrRecorded { pacing := 8 } hgiven hgaps hspeed
  case pitch =>
    have hgaps : capabilityGaps (engine true) [] { pitch := 4 } = [] := by decide +kernel
    have hgiven : (4 : ℚ) ≠ 0 := by decide
    have hpitch : (controlsOf asciiText (engine true) [] { pitch := 4 }).pitchSemitones ≠
        4 * 4 := by decide +kernel
    exact not_honouredOrRecorded { pitch := 4 } hgiven hgaps hpitch
  case neutral =>
    intro h
    have hspeed : (controlsOf asciiText (engine false) []
        { deliveryMode := "WHISPER".toList }).speed ≠ 1 := by decide +kernel
    exact hspeed ((h asciiText (engine false) [] { deliveryMode := "WHISPER".toList }
      "en-US".toList 10 _ rfl).1 rfl)

end AudioBook.Capability
