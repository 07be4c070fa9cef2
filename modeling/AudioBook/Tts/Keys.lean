import AudioBook.Keys.Segments
import AudioBook.Schema.Rows

/-!
# The Identity Keys of a Synthesis

`startTts` gives every synthesis two keys: the `idempotency_key` of its `processing_job`, which the
unique index over the jobs reads, and the `dedupe_key` of its `tts_job`, which is also the job's
fingerprint. The first names the voice by its version number within its profile and leaves out the
version and the seed of the chunk; the second names it by id and has both.

Main results:

- `keysAgree_iff`: the keys agree on two requests exactly when, if chunk, model and parameters are
  the same, equal version numbers of the voice stand for the same voice version, chunk version and
  seed.
-/

namespace AudioBook

open Keys

/-- An id or a digest, as the keys write it. -/
abbrev KeySegment := Segment ':'

namespace KeySegment

/-- `String(i)`. -/
def ofInt (i : ℤ) : KeySegment := Segment.ofInt (by decide) i

/-- `i?.toString() ?? ''`. -/
def ofInt? (i : Option ℤ) : KeySegment := Segment.ofInt? (by decide) i

end KeySegment

/-- What `startTts` reads of a chunk, and of the version of the voice that speaks it. -/
structure SynthesisRequest where
  chunkId : KeySegment
  chunkVersion : ℤ
  seed : Option ℤ
  voiceProfileVersionId : KeySegment
  /-- The number of the voice version within its profile. -/
  voiceVersion : ℤ
  ttsModelVersionId : KeySegment
  baseGenerationParamsHash : KeySegment
  deriving DecidableEq

namespace SynthesisRequest

/-- The segments of the `idempotencyKey` of the `processing_job`. -/
def idempotencySegments (r : SynthesisRequest) : List KeySegment :=
  [⟨['t', 't', 's'], by decide⟩, r.chunkId, .ofInt r.voiceVersion, r.ttsModelVersionId,
    r.baseGenerationParamsHash]

/-- The `idempotencyKey` of the `processing_job`. -/
def idempotencyKey (r : SynthesisRequest) : Text := Segment.join r.idempotencySegments

/-- The segments under the digest of `ttsDedupeKey`. -/
def dedupeSegments (r : SynthesisRequest) (forceToken : Option KeySegment) : List KeySegment :=
  [r.chunkId, .ofInt r.chunkVersion, r.voiceProfileVersionId, r.ttsModelVersionId,
    r.baseGenerationParamsHash, .ofInt? r.seed, forceToken.getD .empty]

/-- The text under the digest of `ttsDedupeKey`. -/
def dedupeText (r : SynthesisRequest) (forceToken : Option KeySegment) : Text :=
  Segment.join (r.dedupeSegments forceToken)

/-- `ttsDedupeKey`, with the digest `sha256`. -/
def ttsDedupeKey {H : Type} (sha256 : Text → H) (r : SynthesisRequest)
    (forceToken : Option KeySegment) : H :=
  sha256 (r.dedupeText forceToken)

variable {H : Type} {sha256 : Text → H} {r₁ r₂ : SynthesisRequest}

theorem idempotencyKey_eq_iff :
    r₁.idempotencyKey = r₂.idempotencyKey ↔
      r₁.chunkId = r₂.chunkId ∧ r₁.voiceVersion = r₂.voiceVersion ∧
        r₁.ttsModelVersionId = r₂.ttsModelVersionId ∧
        r₁.baseGenerationParamsHash = r₂.baseGenerationParamsHash := by
  have hne : ∀ r : SynthesisRequest, r.idempotencySegments ≠ [] := fun r => List.cons_ne_nil _ _
  rw [idempotencyKey, idempotencyKey, Segment.join_inj (hne r₁) (hne r₂)]
  simp [idempotencySegments, KeySegment.ofInt]

theorem ttsDedupeKey_eq_iff (hsha : Function.Injective sha256) :
    r₁.ttsDedupeKey sha256 none = r₂.ttsDedupeKey sha256 none ↔
      r₁.chunkId = r₂.chunkId ∧ r₁.chunkVersion = r₂.chunkVersion ∧
        r₁.voiceProfileVersionId = r₂.voiceProfileVersionId ∧
        r₁.ttsModelVersionId = r₂.ttsModelVersionId ∧
        r₁.baseGenerationParamsHash = r₂.baseGenerationParamsHash ∧ r₁.seed = r₂.seed := by
  have hne : ∀ r : SynthesisRequest, r.dedupeSegments none ≠ [] := fun r => List.cons_ne_nil _ _
  rw [ttsDedupeKey, ttsDedupeKey, hsha.eq_iff, dedupeText, dedupeText,
    Segment.join_inj (hne r₁) (hne r₂)]
  simp [dedupeSegments, KeySegment.ofInt, KeySegment.ofInt?]

/-- On two unforced requests, the first key identifies them exactly when the second does. -/
def KeysAgree (sha256 : Text → H) (r₁ r₂ : SynthesisRequest) : Prop :=
  r₁.idempotencyKey = r₂.idempotencyKey ↔
    r₁.ttsDedupeKey sha256 none = r₂.ttsDedupeKey sha256 none

instance [DecidableEq H] : Decidable (KeysAgree sha256 r₁ r₂) :=
  inferInstanceAs (Decidable (_ ↔ _))

/-- The keys agree on two requests exactly when, for the same chunk, model and parameters, the
version number of the voice tells the same requests apart as its id with the chunk's version and
seed does. -/
theorem keysAgree_iff (hsha : Function.Injective sha256) :
    KeysAgree sha256 r₁ r₂ ↔
      (r₁.chunkId = r₂.chunkId → r₁.ttsModelVersionId = r₂.ttsModelVersionId →
        r₁.baseGenerationParamsHash = r₂.baseGenerationParamsHash →
        (r₁.voiceVersion = r₂.voiceVersion ↔
          r₁.voiceProfileVersionId = r₂.voiceProfileVersionId ∧
            r₁.chunkVersion = r₂.chunkVersion ∧ r₁.seed = r₂.seed)) := by
  rw [KeysAgree, idempotencyKey_eq_iff, ttsDedupeKey_eq_iff hsha]
  constructor
  · intro h hchunk hmodel hparams
    simpa [hchunk, hmodel, hparams, and_left_comm] using h
  · intro h
    constructor
    · rintro ⟨hchunk, hversion, hmodel, hparams⟩
      obtain ⟨hvoice, hchunkVersion, hseed⟩ := (h hchunk hmodel hparams).mp hversion
      exact ⟨hchunk, hchunkVersion, hvoice, hmodel, hparams, hseed⟩
    · rintro ⟨hchunk, hchunkVersion, hvoice, hmodel, hparams, hseed⟩
      exact ⟨hchunk, (h hchunk hmodel hparams).mpr ⟨hvoice, hchunkVersion, hseed⟩, hmodel, hparams⟩

def original : SynthesisRequest where
  chunkId := ⟨['c'], by decide⟩
  chunkVersion := 1
  seed := none
  voiceProfileVersionId := ⟨['v'], by decide⟩
  voiceVersion := 1
  ttsModelVersionId := ⟨['m'], by decide⟩
  baseGenerationParamsHash := ⟨['p'], by decide⟩

/-- The request after the chunk was recast to the first version of another voice profile. -/
def recast : SynthesisRequest :=
  { original with voiceProfileVersionId := ⟨['w'], by decide⟩ }

/-- The keys agree that a new version of the voice makes a new synthesis. -/
theorem keysAgree_revoiced :
    KeysAgree id original
      { original with voiceProfileVersionId := ⟨['w'], by decide⟩, voiceVersion := 2 } :=
  (keysAgree_iff Function.injective_id).mpr (by decide)

/-- Two voice profiles whose versions have the same number share the first key, not the second. -/
theorem not_keysAgree_recast : ¬ KeysAgree id original recast := by
  decide

end SynthesisRequest

end AudioBook
