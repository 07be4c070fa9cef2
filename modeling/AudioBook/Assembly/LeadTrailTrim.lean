import AudioBook.Numerics.BinaryRounding

/-!
# Trimming the Silence Around a Chunk

`computeLeadTrailTrim`: the silence at the two ends of a chunk, as far as `silencedetect` found it,
is cut off. Numbers are doubles: the sum and the difference with `EPSILON_SEC` are rounded.

Main results:

- `computeLeadTrailTrim_keepsSpeech`: the bounds never cross, and what is cut off is silence, but
  for `EPSILON_SEC` at each end, up to the rounding of one difference at the second one.
-/

namespace AudioBook.Mastering

open Numerics

structure SilenceInterval where
  startSec : ℚ
  /-- None, where the silence was still open at the end of the stream. -/
  endSec : Option ℚ

def epsilonSec : ℚ := fl (1 / 20)

/-- What `computeLeadTrailTrim` returns. -/
structure Trim where
  trimStartSec : Option ℚ
  trimEndSec : Option ℚ
  leadTrimmedMs : ℤ
  deriving DecidableEq

/-- `Math.round(sec * 1000)`. -/
def roundMs (sec : ℚ) : ℤ := ⌊fl (sec * 1000) + 1 / 2⌋

def leadEnd (intervals : List SilenceInterval) (totalDurationSec : ℚ) : Option ℚ :=
  match intervals.head? with
  | some ⟨startSec, some endSec⟩ =>
      if startSec ≤ epsilonSec ∧ endSec < totalDurationSec then some endSec else none
  | _ => none

def trailStart (intervals : List SilenceInterval) (totalDurationSec : ℚ)
    (trimStartSec : Option ℚ) : Option ℚ :=
  match intervals.getLast? with
  | some last =>
      if fl (totalDurationSec - epsilonSec) ≤ last.endSec.getD totalDurationSec ∧
          fl (trimStartSec.getD 0 + epsilonSec) < last.startSec then
        some last.startSec
      else none
  | none => none

def computeLeadTrailTrim (intervals : List SilenceInterval) (totalDurationSec : ℚ) : Trim :=
  let trimStartSec := leadEnd intervals totalDurationSec
  { trimStartSec
    trimEndSec := trailStart intervals totalDurationSec trimStartSec
    leadTrimmedMs := (trimStartSec.map roundMs).getD 0 }

/-! ## What Is Kept -/

section specification

variable (total : ℚ)

/-- Where an interval ends: an open one at the end of the clip. -/
def SilenceInterval.stop (interval : SilenceInterval) : ℚ := interval.endSec.getD total

/-- Intervals of a clip, in order and disjoint; only the last one may be open. -/
structure SilencesIn (intervals : List SilenceInterval) : Prop where
  starts : ∀ interval ∈ intervals, 0 ≤ interval.startSec ∧ interval.startSec ≤ interval.stop total
  stops : ∀ interval ∈ intervals, interval.stop total ≤ total
  ordered : intervals.Pairwise fun first second =>
    first.endSec.isSome ∧ first.stop total ≤ second.startSec
  doubles : ∀ interval ∈ intervals,
    IsDouble interval.startSec ∧ ∀ endSec ∈ interval.endSec, IsDouble endSec

/-- A moment of a detected silence. -/
def InSilence (intervals : List SilenceInterval) (moment : ℚ) : Prop :=
  ∃ interval ∈ intervals, interval.startSec ≤ moment ∧ moment ≤ interval.stop total

def Trim.start (trim : Trim) : ℚ := trim.trimStartSec.getD 0

def Trim.stop (trim : Trim) : ℚ := trim.trimEndSec.getD total

/-- A moment that is kept. -/
def Trim.Keeps (trim : Trim) (moment : ℚ) : Prop := trim.start ≤ moment ∧ moment ≤ trim.stop total

/-- The bounds do not cross, what is cut off is silence but for a tolerance at each end, and
nothing between two moments that are kept is cut off. -/
structure KeepsSpeech (leadTolerance trailTolerance : ℚ) (intervals : List SilenceInterval)
    (trim : Trim) : Prop where
  start_nonneg : 0 ≤ trim.start
  start_lt_stop : trim.start < trim.stop total
  stop_le : trim.stop total ≤ total
  lead : ∀ moment, 0 ≤ moment → moment < trim.start →
    InSilence total intervals moment ∨ moment ≤ leadTolerance
  trail : ∀ moment, trim.stop total < moment → moment ≤ total →
    InSilence total intervals moment ∨ total - moment ≤ trailTolerance
  between : ∀ first moment last, trim.Keeps total first → trim.Keeps total last →
    first ≤ moment → moment ≤ last → trim.Keeps total moment

end specification

/-! ## The Bounds -/

variable {total moment : ℚ} {intervals : List SilenceInterval}

theorem epsilonSec_nonneg : 0 ≤ epsilonSec := Format.round_nonneg (by norm_num)

theorem leadEnd_eq_some {endSec : ℚ} (h : leadEnd intervals total = some endSec) :
    ∃ first ∈ intervals, first.endSec = some endSec ∧ first.startSec ≤ epsilonSec ∧
      endSec < total := by
  unfold leadEnd at h
  split at h
  next startSec endSec' hhead =>
    split_ifs at h with hcond
    obtain rfl := Option.some.inj h
    exact ⟨_, List.mem_of_mem_head? hhead, rfl, hcond.1, hcond.2⟩
  next => cases h

theorem trailStart_eq_some {trimStartSec : Option ℚ} {startSec : ℚ}
    (h : trailStart intervals total trimStartSec = some startSec) :
    ∃ last ∈ intervals, last.startSec = startSec ∧
      fl (total - epsilonSec) ≤ last.stop total ∧
      fl (trimStartSec.getD 0 + epsilonSec) < startSec := by
  unfold trailStart at h
  split at h
  next last hlast =>
    split_ifs at h with hcond
    obtain rfl := Option.some.inj h
    exact ⟨last, List.mem_of_mem_getLast? hlast, rfl, hcond.1, hcond.2⟩
  next => cases h

theorem le_fl_add_epsilonSec {value : ℚ} (h : IsDouble value) :
    value ≤ fl (value + epsilonSec) := by
  calc value = fl value := h.symm
    _ ≤ fl (value + epsilonSec) :=
      Format.round_mono (le_add_of_nonneg_right epsilonSec_nonneg)

theorem sub_fl_le (total : ℚ) :
    total - fl (total - epsilonSec) ≤ epsilonSec + binary64.ulp |total - epsilonSec| / 2 := by
  have hround := binary64.abs_round_sub_le (total - epsilonSec)
  have hlow := (abs_le.mp hround).1
  unfold fl
  linarith

theorem SilencesIn.leadEnd_bounds (h : SilencesIn total intervals) {endSec : ℚ}
    (hlead : leadEnd intervals total = some endSec) : 0 ≤ endSec ∧ IsDouble endSec := by
  obtain ⟨first, hmem, hstop, -, -⟩ := leadEnd_eq_some hlead
  obtain ⟨hnonneg, hle⟩ := h.starts first hmem
  rw [SilenceInterval.stop, hstop, Option.getD_some] at hle
  exact ⟨hnonneg.trans hle, (h.doubles first hmem).2 endSec hstop⟩

/-- The bounds never cross, and what is cut off is silence, but for the tolerance at each end. -/
theorem computeLeadTrailTrim_keepsSpeech (htotal : 0 < total) (h : SilencesIn total intervals) :
    KeepsSpeech total epsilonSec (epsilonSec + binary64.ulp |total - epsilonSec| / 2) intervals
      (computeLeadTrailTrim intervals total) := by
  have hzero : IsDouble 0 := by simp [IsDouble, fl, Format.round_of_nonneg, Format.roundNonneg_zero]
  -- the start is a double, and not negative
  have hstart : 0 ≤ (computeLeadTrailTrim intervals total).start ∧
      IsDouble (computeLeadTrailTrim intervals total).start := by
    rw [Trim.start, computeLeadTrailTrim]
    cases hlead : leadEnd intervals total with
    | none => exact ⟨le_rfl, hzero⟩
    | some endSec => exact h.leadEnd_bounds hlead
  have hstop : ∀ startSec, (computeLeadTrailTrim intervals total).trimEndSec = some startSec →
      (computeLeadTrailTrim intervals total).start < startSec ∧ startSec ≤ total := by
    intro startSec htrail
    obtain ⟨last, hmem, rfl, -, hlt⟩ := trailStart_eq_some htrail
    exact ⟨(le_fl_add_epsilonSec hstart.2).trans_lt hlt,
      (h.starts last hmem).2.trans (h.stops last hmem)⟩
  exact {
    start_nonneg := hstart.1
    start_lt_stop := by
      rw [Trim.stop]
      cases htrail : (computeLeadTrailTrim intervals total).trimEndSec with
      | some startSec => exact (hstop startSec htrail).1
      | none =>
        -- without a bound at the end, the lead ends before the clip does
        rw [Option.getD_none, Trim.start, computeLeadTrailTrim]
        cases hlead : leadEnd intervals total with
        | none => exact htotal
        | some endSec =>
          obtain ⟨-, -, -, -, hlt⟩ := leadEnd_eq_some hlead
          exact hlt
    stop_le := by
      rw [Trim.stop]
      cases htrail : (computeLeadTrailTrim intervals total).trimEndSec with
      | some startSec => exact (hstop startSec htrail).2
      | none => exact le_rfl
    lead := by
      intro moment hnonneg hlt
      rw [Trim.start, computeLeadTrailTrim] at hlt
      cases hlead : leadEnd intervals total with
      | none =>
        rw [hlead] at hlt
        exact absurd hlt (not_lt.mpr hnonneg)
      | some endSec =>
        rw [hlead, Option.getD_some] at hlt
        obtain ⟨first, hmem, hend, hle, -⟩ := leadEnd_eq_some hlead
        rcases le_total first.startSec moment with hin | hbefore
        · refine .inl ⟨first, hmem, hin, ?_⟩
          rw [SilenceInterval.stop, hend]
          exact hlt.le
        -- the silence may start later than the clip
        · exact .inr (hbefore.trans hle)
    trail := by
      intro moment hlt hle
      rw [Trim.stop] at hlt
      cases htrail : (computeLeadTrailTrim intervals total).trimEndSec with
      | none =>
        rw [htrail] at hlt
        exact absurd hlt (not_lt.mpr hle)
      | some startSec =>
        rw [htrail, Option.getD_some] at hlt
        obtain ⟨last, hmem, rfl, hend, -⟩ := trailStart_eq_some htrail
        rcases le_total moment (last.stop total) with hin | hbehind
        · exact .inl ⟨last, hmem, hlt.le, hin⟩
        -- it may end before the clip, by the tolerance as it is rounded
        · have hsub := sub_fl_le total
          exact .inr (by linarith)
    between := fun first moment last hfirst hlast hle hle' =>
      ⟨hfirst.1.trans hle, hle'.trans hlast.2⟩ }

/-! ## Clips of a Second -/

def paddedClip : List SilenceInterval := [⟨0, some (1 / 4)⟩, ⟨1 / 2, none⟩]

theorem silencesIn_paddedClip : SilencesIn 1 paddedClip where
  starts := by simp [paddedClip, SilenceInterval.stop]; norm_num
  stops := by simp [paddedClip, SilenceInterval.stop]; norm_num
  ordered := by simp [paddedClip, SilenceInterval.stop]; norm_num
  doubles := by
    simp only [paddedClip, List.forall_mem_cons, IsDouble, Option.mem_def, Option.some.injEq,
      forall_eq', reduceCtorEq, false_implies, implies_true, List.not_mem_nil, and_true]
    decide +kernel

theorem computeLeadTrailTrim_keepsSpeech_paddedClip :
    KeepsSpeech 1 epsilonSec (epsilonSec + binary64.ulp |1 - epsilonSec| / 2) paddedClip
      (computeLeadTrailTrim paddedClip 1) :=
  computeLeadTrailTrim_keepsSpeech one_pos silencesIn_paddedClip

example : computeLeadTrailTrim paddedClip 1 = ⟨some (1 / 4), some (1 / 2), 250⟩ := by
  decide +kernel

/-- The double nearest to 0.95. -/
def nearlyTheEnd : ℚ := 8556839292003942 / 2 ^ 53

/-- A silence that ends at 0.95, which is where `1 - EPSILON_SEC` is rounded to. -/
def shortTail : List SilenceInterval := [⟨1 / 2, some nearlyTheEnd⟩]

theorem silencesIn_shortTail : SilencesIn 1 shortTail where
  starts := by simp [shortTail, SilenceInterval.stop, nearlyTheEnd]; norm_num
  stops := by simp [shortTail, SilenceInterval.stop, nearlyTheEnd]; norm_num
  ordered := by simp [shortTail]
  doubles := by
    simp only [shortTail, List.forall_mem_cons, IsDouble, Option.mem_def, Option.some.injEq,
      forall_eq', List.not_mem_nil, false_implies, implies_true, and_true]
    decide +kernel

/-- The tolerance at the second end is not `EPSILON_SEC`, exactly. -/
theorem not_forall_keepsSpeech :
    ¬ ∀ (total : ℚ) (intervals : List SilenceInterval), 0 < total → SilencesIn total intervals →
        KeepsSpeech total epsilonSec epsilonSec intervals
          (computeLeadTrailTrim intervals total) := by
  intro h
  have hkeeps := h 1 shortTail one_pos silencesIn_shortTail
  have htrim : computeLeadTrailTrim shortTail 1 = ⟨none, some (1 / 2), 0⟩ := by decide +kernel
  have hrounded : nearlyTheEnd < 1 - epsilonSec := by decide +kernel
  have hhalf : (1 : ℚ) / 2 < nearlyTheEnd := by decide +kernel
  -- a moment between the end of the silence and the tolerance
  have htrail := hkeeps.trail ((nearlyTheEnd + (1 - epsilonSec)) / 2)
  rw [htrim] at htrail
  have hcut : InSilence 1 shortTail ((nearlyTheEnd + (1 - epsilonSec)) / 2) ∨
      1 - (nearlyTheEnd + (1 - epsilonSec)) / 2 ≤ epsilonSec := by
    apply htrail
    · rw [Trim.stop, Option.getD_some]
      linarith
    · have hnonneg := epsilonSec_nonneg
      linarith
  rcases hcut with ⟨interval, hmem, -, hle⟩ | hle
  · rw [shortTail, List.mem_singleton] at hmem
    rw [hmem, SilenceInterval.stop, Option.getD_some] at hle
    linarith
  · linarith

end AudioBook.Mastering
