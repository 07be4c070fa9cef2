import AudioBook.Schema.Store
import Mathlib.Data.List.Infix

/-!
# What the Python Workers Raise

The exceptions of the queue runtime and of the handlers, and the taxonomy of synthesis errors
with its classification. A transaction of a worker is one session on the database: it commits
when the session ends, and any exception rolls it back.
-/

namespace AudioBook

open Relational

inductive WorkerError
  /-- `TerminalJobError`: retrying cannot fix it. -/
  | terminal (code : ErrorCode)
  | transient (code : ErrorCode)
  /-- `UnrecoverableError`: tells the queue not to retry. -/
  | unrecoverable
  | tts (code : TtsErrorCode)
  | validation (code : ErrorCode)
  | database (fault : Fault)
  /-- Any other exception, with its lower-cased type and message. -/
  | unexpected (text : Text)
  deriving DecidableEq

instance : OfViolation WorkerError := ⟨fun v => .database (.violation v)⟩

abbrev Session := Transaction Store WorkerError

/-- The statements of a transaction as part of a session. -/
def Session.of {α : Type} (t : Tx α) : Session α := fun s =>
  match t s with
  | .ok r => .ok r
  | .error fault => .error (.database fault)

instance : MonadLift Tx Session := ⟨Session.of⟩

@[simp]
theorem Session.of_eq_ok_iff {α : Type} {t : Tx α} {s : Store} {r : α × Store} :
    Session.of t s = .ok r ↔ t s = .ok r := by
  unfold Session.of
  cases t s with
  | ok r' => simp
  | error fault => simp

@[simp]
theorem Session.lift_eq_ok_iff {α : Type} {t : Tx α} {s : Store} {r : α × Store} :
    (liftM t : Session α) s = .ok r ↔ t s = .ok r :=
  Session.of_eq_ok_iff

theorem Session.of_within {α : Type} {R : Store → Store → Prop} {t : Tx α} (h : t.Within R) :
    (Session.of t).Within R :=
  fun s a s' hs => h s a s' (Session.of_eq_ok_iff.mp hs)

/-- `except (TerminalJobError, TransientJobError)`. -/
def WorkerError.IsJobError : WorkerError → Prop
  | terminal _ => True
  | transient _ => True
  | _ => False

instance : (err : WorkerError) → Decidable err.IsJobError
  | .terminal _ => isTrue trivial
  | .transient _ => isTrue trivial
  | .unrecoverable | .tts _ | .validation _ | .database _ | .unexpected _ => isFalse not_false

/-- `getattr(exc, "error_code", default)`. -/
def WorkerError.codeOr (default : ErrorCode) : WorkerError → ErrorCode
  | terminal code => code
  | transient code => code
  | tts code => .tts code
  | validation code => code
  | _ => default

/-! ## The Synthesis Taxonomy -/

inductive Classification
  | retryable
  | nonRetryable
  | humanReviewRequired
  deriving DecidableEq, Repr

def TtsErrorCode.classification : TtsErrorCode → Classification
  | modelLoadFailed | gpuOutOfMemory | gpuUnavailable | providerTimeout | providerRateLimit
  | synthesisFailed | audioCorrupted | outputStorageFailed => .retryable
  | invalidAudioScript | voiceNotFound | voiceVersionInvalid | missingVoiceProfile
  | voiceModelIncompatible | modelNotFound | voiceLanguageMismatch | unsupportedTtsCapability
  | audioValidationFailed | voiceModelUnavailable | voiceConsistencyViolation
  | artifactUploadUnverified | invalidSourceHash => .nonRetryable

def toJobError (code : TtsErrorCode) : WorkerError :=
  if code.classification = .retryable then .transient (.tts code) else .terminal (.tts code)

def nativeErrorPatterns : List (List String × TtsErrorCode) := [
  (["out of memory", "oom", "cuda_error_out_of_memory"], .gpuOutOfMemory),
  (["no cuda", "no gpu", "cuda unavailable", "device unavailable", "no such device"],
    .gpuUnavailable),
  (["dimension mismatch", "embedding dimension", "speaker embedding", "shape mismatch"],
    .voiceModelIncompatible),
  (["429", "too many requests", "rate limit"], .providerRateLimit),
  (["timed out", "timeout", "deadline exceeded"], .providerTimeout),
  (["nan", "inf", "corrupt"], .audioCorrupted)]

/-- `classify_provider_error`, for the exceptions that a provider raises: `TtsError`s of the
adapters and native ones. -/
def classifyProviderError : WorkerError → TtsErrorCode
  | .tts code => code
  | .unexpected text =>
      match nativeErrorPatterns.find? fun p => p.1.any fun needle => decide (needle.toList <:+: text) with
      | some (_, code) => code
      | none => .synthesisFailed
  | _ => .synthesisFailed

end AudioBook
