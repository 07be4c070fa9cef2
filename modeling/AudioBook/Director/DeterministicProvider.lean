import AudioBook.Director.Decisions
import AudioBook.Numerics.BinaryRounding
import AudioBook.Semantic.Matches

/-!
# The Deterministic Director

`DeterministicDirectorProvider` of `director/deterministic.py`, with the field constraints of
`director/schemas.py`. Floats are rational numbers, and every operation and every literal is rounded
to double precision; the text of a chunk is searched with the cue patterns.

Whatever the texts and the speakers, the provider's decisions meet the schema
(`decidePerformance_eq_ok`), along any run that threads each result to the next chunk
(`directSequence_eq_ok`).
-/

namespace AudioBook.Direction

open ChunkEdits (Emotion DeliveryMode Pause Emphasis NonVerbal)
open Numerics (binary64 Format)

/-! ## The Schema -/

/-- `PerformanceDecision`, with the confidence of the provider. -/
structure ProviderDecision extends PerformanceDecision where
  confidence : ℚ
  deriving DecidableEq

/-- The model that rejects its fields. -/
inductive ValidationError
  | performanceChunkInput
  | performanceDecision
  deriving DecidableEq, Repr

/-- `Field(ge=lo, le=hi)`. -/
def InRange (lo hi value : ℚ) : Prop := lo ≤ value ∧ value ≤ hi

instance (lo hi value : ℚ) : Decidable (InRange lo hi value) :=
  inferInstanceAs (Decidable (_ ∧ _))

/-- `PACING_MIN`, `PACING_MAX` and `PACING_BASELINE`. -/
def pacingMin : ℚ := 1 / 2
def pacingMax : ℚ := 2
def pacingBaseline : ℚ := 1

/-- `PITCH_MIN`, `PITCH_MAX` and `PITCH_BASELINE`; the ones of the volume are the same. -/
def pitchMin : ℚ := -1
def pitchMax : ℚ := 1
def pitchBaseline : ℚ := 0

/-- The fields of a `Pause` are in its schema. -/
def PauseInSchema (p : Pause) : Prop :=
  p.position ∈ ["LEADING", "TRAILING", "OFFSET"] ∧
    p.kind ∈ ["BEAT", "SENTENCE", "PARAGRAPH", "DRAMATIC", "SCENE_TRANSITION",
      "SPEAKER_TRANSITION"].map some ∧
    p.breath ∈ ["NONE", "NATURAL", "AUDIBLE", "HEAVY"].map some

/-- The fields of an `Emphasis` are in its schema. -/
def EmphasisInSchema (e : Emphasis) : Prop :=
  1 ≤ e.lengthChars ∧ InRange 0 1 e.strength

/-- The fields of a `NonVerbal` are in its schema. -/
def NonVerbalInSchema (n : NonVerbal) : Prop :=
  n.expression ∈ ["LAUGH", "SIGH", "GASP", "SOB", "GROAN", "BREATH", "THROAT_CLEAR",
      "HESITATION"] ∧
    InRange 0 1 n.intensity ∧ n.placement ∈ ["BEFORE", "AFTER", "OVERLAY"]

instance (p : Pause) : Decidable (PauseInSchema p) := inferInstanceAs (Decidable (_ ∧ _))
instance (e : Emphasis) : Decidable (EmphasisInSchema e) := inferInstanceAs (Decidable (_ ∧ _))
instance (n : NonVerbal) : Decidable (NonVerbalInSchema n) := inferInstanceAs (Decidable (_ ∧ _))

/-- The fields of a decision are in its schema. -/
structure ProviderDecision.InSchema (d : ProviderDecision) : Prop where
  emotionIntensity : InRange 0 1 d.emotionIntensity
  pacing : InRange pacingMin pacingMax d.pacing
  pitch : InRange pitchMin pitchMax d.pitch
  volume : InRange pitchMin pitchMax d.volume
  confidence : InRange 0 1 d.confidence
  pauses : ∀ p ∈ d.pauses, PauseInSchema p
  emphasis : ∀ e ∈ d.emphasis, EmphasisInSchema e
  nonVerbal : ∀ n ∈ d.nonVerbal, NonVerbalInSchema n

theorem ProviderDecision.inSchema_iff {d : ProviderDecision} :
    d.InSchema ↔ InRange 0 1 d.emotionIntensity ∧ InRange pacingMin pacingMax d.pacing ∧
      InRange pitchMin pitchMax d.pitch ∧ InRange pitchMin pitchMax d.volume ∧
      InRange 0 1 d.confidence ∧ (∀ p ∈ d.pauses, PauseInSchema p) ∧
      (∀ e ∈ d.emphasis, EmphasisInSchema e) ∧ ∀ n ∈ d.nonVerbal, NonVerbalInSchema n :=
  ⟨fun h => ⟨h.1, h.2, h.3, h.4, h.5, h.6, h.7, h.8⟩,
    fun ⟨h₁, h₂, h₃, h₄, h₅, h₆, h₇, h₈⟩ => ⟨h₁, h₂, h₃, h₄, h₅, h₆, h₇, h₈⟩⟩

instance (d : ProviderDecision) : Decidable d.InSchema :=
  decidable_of_iff' _ ProviderDecision.inSchema_iff

/-- The fields of a `PreviousPerformanceState` are in its schema. -/
def PreviousPerformanceState.InSchema (p : PreviousPerformanceState) : Prop :=
  (∀ v ∈ p.emotionIntensity, InRange 0 1 v) ∧ (∀ v ∈ p.pacing, InRange pacingMin pacingMax v) ∧
    (∀ v ∈ p.pitch, InRange pitchMin pitchMax v) ∧ ∀ v ∈ p.volume, InRange pitchMin pitchMax v

instance (p : PreviousPerformanceState) : Decidable p.InSchema :=
  inferInstanceAs (Decidable (_ ∧ _))

/-- The fields of a `SceneContext` are in its schema. -/
def SceneContext.InSchema (scene : SceneContext) : Prop := ∀ v ∈ scene.tension, InRange 0 1 v

instance (scene : SceneContext) : Decidable scene.InSchema :=
  inferInstanceAs (Decidable (∀ v ∈ scene.tension, InRange 0 1 v))

/-- The fields of a `PerformanceChunkInput` are in its schema. -/
def PerformanceChunkInput.InSchema (input : PerformanceChunkInput) : Prop :=
  (∀ scene ∈ input.scene, scene.InSchema) ∧ ∀ p ∈ input.previousState, p.InSchema

instance (input : PerformanceChunkInput) : Decidable input.InSchema :=
  inferInstanceAs (Decidable (_ ∧ _))

/-! ## Cues -/

/-- A letter of a cue; the Kelvin sign is a case of `k`. -/
def cueLetter (letter : Char) : Pattern :=
  .alt (anyCase letter) (.chars fun c => decide (letter = 'k' ∧ c = '\u212A'))

def cuePart (part : String) : Pattern := .seqAll (part.toList.map cueLetter)

/-- `stem(?:s1|s2|…)`. -/
def cueOneOf (stem first : String) (others : List String) : Pattern :=
  .seq (cuePart stem) (.altAll (cuePart first) (others.map cuePart))

/-- `stem(?:s1|s2|…)?`. -/
def cueUpTo (stem first : String) (others : List String) : Pattern :=
  .seq (cuePart stem) (.upTo 1 (.altAll (cuePart first) (others.map cuePart)))

/-- `\b(c1|c2|…)\b`. -/
def cueRe (u : PythonText) (first : Pattern) (others : List Pattern) : Pattern :=
  .seqAll [.boundary u.isWord, .group (.altAll first others), .boundary u.isWord]

def deliveryCues (u : PythonText) : List (Pattern × DeliveryMode) := [
  (cueRe u (cueUpTo "whisper" "ed" ["s", "ing"]) [cueUpTo "murmur" "ed" ["s", "ing"]], .whisper),
  (cueRe u (cueUpTo "shout" "ed" ["s", "ing"])
    [cueUpTo "yell" "ed" ["s", "ing"], cueUpTo "bellow" "ed" ["s", "ing"]], .shout),
  (cueRe u (cueUpTo "laugh" "ed" ["s", "ing"])
    [cueUpTo "chuckl" "ed" ["es", "ing"], cueUpTo "giggl" "ed" ["es", "ing"]], .laughing),
  (cueRe u (cueUpTo "sob" "bed" ["s", "bing"])
    [cuePart "wept", cuePart "weeping", cuePart "cried", cuePart "crying"], .crying),
  (cueRe u (cuePart "sang") [cueUpTo "sing" "s" [], cuePart "singing"], .singing),
  (cueRe u (cuePart "read aloud") [cueOneOf "recit" "ed" ["es", "ing"]], .readingAloud)]

def emotionCues (u : PythonText) : List (Pattern × Emotion) := [
  (cueRe u (cueOneOf "griev" "e" ["ed", "ing"])
    [cueUpTo "mourn" "ed" ["ing", "s"], cuePart "loss of"], .grief),
  (cueRe u (cuePart "furious")
    [cuePart "enraged", cueOneOf "angr" "y" ["ily"], cueUpTo "snarl" "ed" ["s", "ing"]], .angry),
  (cueRe u (cuePart "afraid")
    [cuePart "terrified", cueOneOf "frighten" "ed" ["ing"], cuePart "scared"], .fearful),
  (cueRe u (cueUpTo "gasp" "ed" ["s", "ing"])
    [cueOneOf "astonish" "ed" ["ing"], cuePart "startled", cuePart "shocked"], .surprised),
  (cueRe u (cueOneOf "disgust" "ed" ["ing"])
    [cueOneOf "revolt" "ed" ["ing"], cueOneOf "repuls" "ed" ["ive"]], .disgusted),
  (cueRe u (cuePart "thrilled")
    [cuePart "excited", cuePart "elated", cueOneOf "exhilarat" "ed" ["ing"]], .excited),
  (cueRe u (cueUpTo "sad" "ly" [])
    [cuePart "wept", cuePart "weeping", cueUpTo "sorrow" "ful" []], .sad),
  (cueRe u (cueOneOf "happ" "y" ["ily"])
    [cueOneOf "smil" "ed" ["es", "ing"], cuePart "delighted", cuePart "cheerful"], .happy),
  (cueRe u (cueUpTo "calm" "ly" [])
    [cuePart "serene", cuePart "peaceful", cuePart "composed"], .calm),
  (cueRe u (cueUpTo "tense" "ly" [])
    [cueUpTo "tight" "ened" [], cuePart "rigid", cuePart "braced"], .tense),
  (cueRe u (cueUpTo "anxious" "ly" [])
    [cueOneOf "worr" "ied" ["ies", "y"], cueUpTo "nervous" "ly" []], .anxious),
  (cueRe u (cueUpTo "somber" "ly" []) [cueUpTo "grim" "ly" [], cuePart "bleak"], .somber),
  (cueRe u (cueUpTo "confident" "ly" []) [cuePart "assured", cuePart "resolute"], .confident),
  (cueRe u (cuePart "unsure")
    [cueUpTo "uncertain" "ly" [], cueUpTo "hesitant" "ly" [], cuePart "doubtful"], .uncertain),
  (cueRe u (cueUpTo "playful" "ly" [])
    [cueUpTo "teasing" "ly" [], cueUpTo "mischievous" "ly" []], .playful),
  (cueRe u (cueUpTo "serious" "ly" [])
    [cueUpTo "solemn" "ly" [], cueUpTo "grave" "ly" []], .serious)]

def nonVerbalCues (u : PythonText) : List (Pattern × String) := [
  (cueRe u (cueUpTo "laugh" "ed" ["s"])
    [cueUpTo "chuckl" "ed" ["es"], cueUpTo "giggl" "ed" ["es"]], "LAUGH"),
  (cueRe u (cueUpTo "sigh" "ed" ["s"]) [], "SIGH"),
  (cueRe u (cueUpTo "gasp" "ed" ["s"]) [], "GASP"),
  (cueRe u (cueUpTo "sob" "bed" ["s"]) [], "SOB"),
  (cueRe u (cueUpTo "groan" "ed" ["s"]) [], "GROAN")]

def rstrip (text : Text) : Text := (text.reverse.dropWhile isPatternSpace).reverse

/-- The words of `_FAST_PACE_CUES`. -/
def fastPaceRe (u : PythonText) : Pattern :=
  cueRe u (cueUpTo "quick" "ly" []) [cueOneOf "hurr" "y" ["ied"], cuePart "rushed", cuePart "ran"]

/-- `_FAST_PACE_CUES.search`. -/
def hasFastPace (u : PythonText) (text : Text) : Bool :=
  -- `[!?]{1,3}\s*$` matches where the last character that is no blank is one of the two
  (rstrip text).getLast?.any (fun c => decide (c = '!' ∨ c = '?')) ||
    (fastPaceRe u).search none text

/-- `_SLOW_PACE_CUES`. -/
def slowPaceRe (u : PythonText) : Pattern :=
  .alt (.literal "...".toList)
    (cueRe u (cueUpTo "slow" "ly" []) [cueUpTo "pause" "d" [], cuePart "lingered"])

/-- `\b[A-Z]{2,}\b`. -/
def capitalsRe (u : PythonText) : Pattern :=
  .seqAll [.boundary u.isWord, .chars fun c => decide ('A' ≤ c ∧ c ≤ 'Z'),
    .plus (.chars fun c => decide ('A' ≤ c ∧ c ≤ 'Z')), .boundary u.isWord]

/-! ## Detection -/

/-- A float literal, and the result of an operation. -/
def fl (value : ℚ) : ℚ := binary64.round value

def quantize (value : ℚ) : ℚ := binary64.roundDecimals 2 value

def clamp (value lo hi : ℚ) : ℚ := max lo (min hi value)

def firstCue {α : Type} (cues : List (Pattern × α)) (text : Text) : Option α :=
  (cues.find? fun cue => cue.1.search none text).map Prod.snd

def detectDeliveryMode (u : PythonText) (text : Text) : DeliveryMode × Bool :=
  match firstCue (deliveryCues u) text with
  | some mode => (mode, true)
  | none => (.normal, false)

/-- `previous.emotion_intensity or 0.3`. -/
def inheritedIntensity (previous : PreviousPerformanceState) : ℚ :=
  match previous.emotionIntensity with
  | some intensity => if intensity = 0 then fl (3 / 10) else intensity
  | none => fl (3 / 10)

def detectEmotion (u : PythonText) (text : Text) (previous : Option PreviousPerformanceState) :
    Emotion × ℚ × Bool :=
  match firstCue (emotionCues u) text with
  | some emotion => (emotion, fl (3 / 5), true)
  | none =>
      match previous with
      | none => (.neutral, fl (1 / 5), false)
      | some previous =>
          match previous.emotion with
          | some emotion =>
              (emotion, max (fl (1 / 5)) (fl (inheritedIntensity previous - fl (1 / 20))), false)
          | none => (.neutral, fl (1 / 5), false)

def detectPacing (u : PythonText) (text : Text) (scene : Option SceneContext)
    (deliveryMode : DeliveryMode) : ℚ :=
  let pacing := pacingBaseline
  let pacing :=
    if deliveryMode = .shout ∨ hasFastPace u text = true then fl (pacing + fl (3 / 25)) else pacing
  let pacing :=
    if deliveryMode ∈ [.whisper, .crying] ∨ (slowPaceRe u).search none text = true then
      fl (pacing - fl (3 / 25))
    else pacing
  let pacing :=
    match scene.bind SceneContext.tension with
    | some tension => fl (pacing + fl (fl (tension - 1 / 2) * fl (1 / 10)))
    | none => pacing
  clamp pacing pacingMin pacingMax

def detectPitchVolume (deliveryMode : DeliveryMode) (emotion : Emotion) (intensity : ℚ) : ℚ × ℚ :=
  let (pitch, volume) :=
    match deliveryMode with
    | .shout => (fl (pitchBaseline + fl (1 / 10)), fl (pitchBaseline + fl (2 / 5)))
    | .whisper => (fl (pitchBaseline - fl (1 / 20)), fl (pitchBaseline - fl (2 / 5)))
    | _ => (pitchBaseline, pitchBaseline)
  let (pitch, volume) :=
    if emotion ∈ [.angry, .excited, .surprised] then
      (pitch, fl (volume + fl (fl (3 / 20) * intensity)))
    else if emotion ∈ [.sad, .grief, .somber, .fearful] then
      (fl (pitch - fl (fl (1 / 20) * intensity)), fl (volume - fl (fl (1 / 10) * intensity)))
    else (pitch, volume)
  (clamp pitch pitchMin pitchMax, clamp volume pitchMin pitchMax)

def detectPauses (text : Text) (input : PerformanceChunkInput)
    (previous : Option PreviousPerformanceState) : List Pause :=
  let leading :=
    match previous with
    | some previous =>
        if previous.speakerCharacterId ≠ input.speaker.characterId then
          [{ position := "LEADING", durationMs := 350, kind := some "SPEAKER_TRANSITION",
             breath := some "NATURAL" : Pause }]
        else []
    | none => []
  let stripped := rstrip text
  let trailing :=
    if "...".toList.isSuffixOf stripped || "—".toList.isSuffixOf stripped then
      [{ position := "TRAILING", durationMs := 500, kind := some "DRAMATIC",
         breath := some "NONE" : Pause }]
    else []
  leading ++ trailing

def detectEmphasis (u : PythonText) (text : Text) : List Emphasis :=
  match (capitalsRe u).searchMatch none 0 text with
  | none => []
  | some found =>
      let word := slice text found.start found.stop
      if word ∈ ["OK".toList, "US".toList, "I".toList] then []
      else [{ offsetChars := found.start, lengthChars := word.length, strength := fl (7 / 10) }]

def detectNonVerbal (u : PythonText) (text : Text) : List NonVerbal :=
  match firstCue (nonVerbalCues u) text with
  | some expression =>
      [{ offsetChars := text.length, lengthChars := 0, expression := expression,
         intensity := 1 / 2, placement := "AFTER" }]
  | none => []

def confidenceOf (cueHit : Bool) : ℚ := if cueHit then fl (9 / 10) else 3 / 4

/-- The arguments of the `PerformanceDecision` that `decide_performance` constructs. -/
def performanceOf (u : PythonText) (input : PerformanceChunkInput) : ProviderDecision :=
  let (deliveryMode, deliveryCueHit) := detectDeliveryMode u input.text
  let (emotion, intensity, emotionCueHit) := detectEmotion u input.text input.previousState
  let (pitch, volume) := detectPitchVolume deliveryMode emotion intensity
  { isDialogue := input.isDialogueHint
    deliveryMode := deliveryMode
    emotion := emotion
    emotionIntensity := quantize intensity
    pacing := quantize (detectPacing u input.text input.scene deliveryMode)
    pitch := quantize pitch
    volume := quantize volume
    pauses := detectPauses input.text input input.previousState
    emphasis := detectEmphasis u input.text
    nonVerbal := detectNonVerbal u input.text
    confidence := confidenceOf (deliveryCueHit || emotionCueHit) }

/-- `decide_performance`. A model that is constructed out of its schema is an error. -/
def decidePerformance (u : PythonText) (input : PerformanceChunkInput) :
    Except ValidationError ProviderDecision :=
  if input.InSchema then
    if (performanceOf u input).InSchema then .ok (performanceOf u input)
    else .error .performanceDecision
  else .error .performanceChunkInput

/-! ## The Bounds of the Values -/

variable {value : ℚ}

theorem fl_le_one (h : value ≤ 1) : fl value ≤ 1 := by
  have hle := binary64.round_le_zpow (k := 0) (by decide) (h.trans_eq (zpow_zero 2).symm)
  rwa [zpow_zero] at hle

theorem fl_unit (h : InRange 0 1 value) : InRange 0 1 (fl value) :=
  ⟨Format.round_nonneg h.1, fl_le_one h.2⟩

theorem quantize_unit (h : InRange 0 1 value) : InRange 0 1 (quantize value) :=
  ⟨Format.roundDecimals_nonneg h.1,
    Format.roundDecimals_le 0 100 (by decide) (by norm_num) (by norm_num) h.2⟩

theorem quantize_pacing (h : InRange pacingMin pacingMax value) :
    InRange pacingMin pacingMax (quantize value) :=
  ⟨Format.le_roundDecimals (-1) 50 (by decide) (by norm_num [pacingMin])
      (by norm_num [pacingMin]) h.1,
    Format.roundDecimals_le 1 200 (by decide) (by norm_num [pacingMax])
      (by norm_num [pacingMax]) h.2⟩

theorem quantize_pitch (h : InRange pitchMin pitchMax value) :
    InRange pitchMin pitchMax (quantize value) :=
  ⟨Format.neg_le_roundDecimals 0 100 (by decide) (by norm_num) (by norm_num) h.1,
    Format.roundDecimals_le 0 100 (by decide) (by norm_num [pitchMax])
      (by norm_num [pitchMax]) h.2⟩

theorem clamp_inRange {lo hi : ℚ} (h : lo ≤ hi) (value : ℚ) : InRange lo hi (clamp value lo hi) :=
  ⟨le_max_left _ _, max_le h (min_le_left _ _)⟩

theorem detectEmotion_intensity (u : PythonText) (text : Text)
    {previous : Option PreviousPerformanceState} (hprevious : ∀ p ∈ previous, p.InSchema) :
    InRange 0 1 (detectEmotion u text previous).2.1 := by
  have hliteral : ∀ value : ℚ, InRange 0 1 value → InRange 0 1 (fl value) := fun _ => fl_unit
  unfold detectEmotion
  cases firstCue (emotionCues u) text with
  | some emotion => exact hliteral _ ⟨by norm_num, by norm_num⟩
  | none =>
      cases previous with
      | none => exact hliteral _ ⟨by norm_num, by norm_num⟩
      | some previous =>
          simp only
          cases previous.emotion with
          | none => exact hliteral _ ⟨by norm_num, by norm_num⟩
          | some emotion =>
              -- the decay takes something off what is at most one
              have hinherited : inheritedIntensity previous ≤ 1 := by
                unfold inheritedIntensity
                cases hintensity : previous.emotionIntensity with
                | none => exact (hliteral _ ⟨by norm_num, by norm_num⟩).2
                | some intensity =>
                    simp only
                    split
                    · exact (hliteral _ ⟨by norm_num, by norm_num⟩).2
                    · exact ((hprevious previous rfl).1 intensity hintensity).2
              have hstep : 0 ≤ fl (1 / 20) := (hliteral _ ⟨by norm_num, by norm_num⟩).1
              have hdecayed : fl (inheritedIntensity previous - fl (1 / 20)) ≤ 1 :=
                fl_le_one (by linarith)
              have hleast := hliteral (1 / 5) ⟨by norm_num, by norm_num⟩
              exact ⟨hleast.1.trans (le_max_left _ _), max_le hleast.2 hdecayed⟩

/-! ## The Decision -/

/-- Every place that a decision names is in the text. -/
def WithinText (text : Text) (d : ProviderDecision) : Prop :=
  (∀ e ∈ d.emphasis, e.offsetChars + e.lengthChars ≤ text.length) ∧
    ∀ n ∈ d.nonVerbal, n.offsetChars + n.lengthChars ≤ text.length

theorem detectEmphasis_spec {u : PythonText} {text : Text} {e : Emphasis}
    (hmem : e ∈ detectEmphasis u text) :
    EmphasisInSchema e ∧ e.offsetChars + e.lengthChars ≤ text.length := by
  unfold detectEmphasis at hmem
  split at hmem
  · cases hmem
  · next found hfound =>
      obtain ⟨-, hlength, hstop⟩ := Pattern.searchMatch_bounds hfound
      have hleast : (capitalsRe u).minLength = 2 := rfl
      rw [hleast] at hlength
      simp only at hmem
      split at hmem
      · cases hmem
      · obtain rfl := List.mem_singleton.mp hmem
        have hword : (slice text found.start found.stop).length = found.stop - found.start := by
          rw [slice, List.length_take, List.length_drop]
          omega
        simp only [EmphasisInSchema, hword]
        exact ⟨⟨by omega, fl_unit ⟨by norm_num, by norm_num⟩⟩, by omega⟩

theorem detectNonVerbal_spec {u : PythonText} {text : Text} {n : NonVerbal}
    (hmem : n ∈ detectNonVerbal u text) :
    NonVerbalInSchema n ∧ n.offsetChars + n.lengthChars ≤ text.length := by
  unfold detectNonVerbal at hmem
  split at hmem
  · next expression hcue =>
      obtain rfl := List.mem_singleton.mp hmem
      obtain ⟨cue, hfind, rfl⟩ := Option.map_eq_some_iff.mp hcue
      -- the expressions of the cues are in the schema
      have hexpression : ∀ cue ∈ nonVerbalCues u, cue.2 ∈ ["LAUGH", "SIGH", "GASP", "SOB", "GROAN",
          "BREATH", "THROAT_CLEAR", "HESITATION"] := by
        intro cue hmem
        simp only [nonVerbalCues, List.mem_cons, List.not_mem_nil, or_false] at hmem
        rcases hmem with rfl | rfl | rfl | rfl | rfl <;> simp
      exact ⟨⟨hexpression cue (List.mem_of_find?_eq_some hfind),
        ⟨by norm_num, by norm_num⟩, by simp⟩, by simp⟩
  · cases hmem

variable {input : PerformanceChunkInput}

theorem detectPauses_spec {text : Text} {previous : Option PreviousPerformanceState} {p : Pause}
    (hmem : p ∈ detectPauses text input previous) : PauseInSchema p := by
  unfold detectPauses at hmem
  rcases List.mem_append.mp hmem with hmem | hmem
  · split at hmem
    · split at hmem
      · obtain rfl := List.mem_singleton.mp hmem
        simp [PauseInSchema]
      · cases hmem
    · cases hmem
  · split at hmem
    · obtain rfl := List.mem_singleton.mp hmem
      simp [PauseInSchema]
    · cases hmem

theorem confidenceOf_unit (cueHit : Bool) : InRange 0 1 (confidenceOf cueHit) := by
  unfold confidenceOf
  split
  · exact fl_unit ⟨by norm_num, by norm_num⟩
  · exact ⟨by norm_num, by norm_num⟩

theorem performanceOf_inSchema (u : PythonText) (hinput : input.InSchema) :
    (performanceOf u input).InSchema where
  emotionIntensity := quantize_unit (detectEmotion_intensity u input.text hinput.2)
  pacing := quantize_pacing (clamp_inRange (by norm_num [pacingMin, pacingMax]) _)
  pitch := quantize_pitch (clamp_inRange (by norm_num [pitchMin, pitchMax]) _)
  volume := quantize_pitch (clamp_inRange (by norm_num [pitchMin, pitchMax]) _)
  confidence := confidenceOf_unit _
  pauses := fun _ hmem => detectPauses_spec hmem
  emphasis := fun _ hmem => (detectEmphasis_spec hmem).1
  nonVerbal := fun _ hmem => (detectNonVerbal_spec hmem).1

theorem decidePerformance_eq_ok (u : PythonText) (hinput : input.InSchema) :
    decidePerformance u input = .ok (performanceOf u input) ∧
      WithinText input.text (performanceOf u input) := by
  refine ⟨?_, fun _ hmem => (detectEmphasis_spec hmem).2, fun _ hmem =>
    (detectNonVerbal_spec hmem).2⟩
  rw [decidePerformance, if_pos hinput, if_pos (performanceOf_inSchema u hinput)]

/-! ## Runs -/

/-- The state that a chunk leaves for the next one, which a decision of the schema keeps in it. -/
def followingState (speaker : SpeakerContext) (d : ProviderDecision) :
    PreviousPerformanceState where
  speakerCharacterId := speaker.characterId
  emotion := some d.emotion
  emotionIntensity := some d.emotionIntensity
  pacing := some d.pacing
  pitch := some d.pitch
  volume := some d.volume
  deliveryMode := some d.deliveryMode

def directSequence (u : PythonText) :
    Option PreviousPerformanceState → List PerformanceChunkInput →
      Except ValidationError (List ProviderDecision)
  | _, [] => .ok []
  | previous, chunk :: chunks => do
      let decision ← decidePerformance u { chunk with previousState := previous }
      let decisions ← directSequence u (some (followingState chunk.speaker decision)) chunks
      return decision :: decisions

theorem followingState_inSchema (speaker : SpeakerContext) {d : ProviderDecision}
    (hd : d.InSchema) : (followingState speaker d).InSchema := by
  refine ⟨?_, ?_, ?_, ?_⟩
  all_goals
    intro value hvalue
    obtain rfl := Option.some.inj hvalue
  · exact hd.emotionIntensity
  · exact hd.pacing
  · exact hd.pitch
  · exact hd.volume

/-- However many chunks there are, and whatever their texts and speakers, each has a decision of the
schema, and the places that it names are in the chunk's text. -/
theorem directSequence_eq_ok (u : PythonText) (previous : Option PreviousPerformanceState)
    (hprevious : ∀ p ∈ previous, p.InSchema) (chunks : List PerformanceChunkInput)
    (htension : ∀ chunk ∈ chunks, ∀ scene ∈ chunk.scene, ∀ tension ∈ scene.tension,
      0 ≤ tension ∧ tension ≤ 1) :
    ∃ decisions, directSequence u previous chunks = .ok decisions ∧
      List.Forall₂ (fun chunk d => d.InSchema ∧ WithinText chunk.text d) chunks decisions := by
  -- the invariant of the run is that the state which is passed on is in the schema
  induction chunks generalizing previous with
  | nil => exact ⟨[], rfl, .nil⟩
  | cons chunk chunks ih =>
      have hinput : ({ chunk with previousState := previous } : PerformanceChunkInput).InSchema :=
        ⟨htension chunk List.mem_cons_self, hprevious⟩
      obtain ⟨hok, hwithin⟩ := decidePerformance_eq_ok u hinput
      have hschema := performanceOf_inSchema u hinput
      obtain ⟨decisions, hrest, hall⟩ := ih _ (fun p hp => by
          obtain rfl := Option.some.inj hp
          exact followingState_inSchema chunk.speaker hschema)
        fun later hlater => htension later (List.mem_cons_of_mem _ hlater)
      refine ⟨_, ?_, .cons ⟨hschema, hwithin⟩ hall⟩
      rw [directSequence, hok]
      exact Relational.except_bind_eq_ok_iff.mpr ⟨_, rfl,
        Relational.except_bind_eq_ok_iff.mpr ⟨_, hrest, rfl⟩⟩

/-- Two chunks of a tense scene: an outcry, and a word of a speaker who is new. -/
def outcry : List PerformanceChunkInput := [
  { chunkId := .row 1, text := "She shouted at him. NO!".toList, isDialogueHint := false,
    speaker := ⟨.narrator, some 11, none, none⟩, scene := some ⟨none, none, some (9 / 10)⟩,
    previousState := none },
  { chunkId := .row 2, text := "\"Sorry...".toList, isDialogueHint := true,
    speaker := ⟨.character, some 1, none, none⟩, scene := some ⟨none, none, some (9 / 10)⟩,
    previousState := none }]

theorem directSequence_eq_ok_outcry :
    ∃ decisions, directSequence asciiText none outcry = .ok decisions ∧
      List.Forall₂ (fun chunk d => d.InSchema ∧ WithinText chunk.text d) outcry decisions :=
  directSequence_eq_ok asciiText none (by simp) outcry (by decide +kernel)

/-! ## Books -/

def deterministicProvider (u : PythonText) : Provider ValidationError := fun input =>
  (decidePerformance u input).map ProviderDecision.toPerformanceDecision

section Books

variable {u : PythonText} {maxChars : ℕ}

/-- The tensions of a chapter's scenes are in their range. -/
def TensionsInRange (ctx : DirectorChapterContext) : Prop :=
  ∀ row ∈ ctx.sceneSemanticsByScene, ∀ tension ∈ row.tension, InRange 0 1 tension

/-- The state of the loop makes a previous state of the schema. -/
def ChapterRunState.InSchema (st : ChapterRunState) : Prop := ∀ p ∈ st.previousState, p.InSchema

variable {st : ChapterRunState}

end Books

end AudioBook.Direction
