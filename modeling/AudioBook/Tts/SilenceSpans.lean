import AudioBook.Tts.WaveAudio
import Mathlib.Data.List.TakeWhile
import Mathlib.Order.Bounds.Basic

/-!
# Measuring Silence

`_silence_spans` of `audio.py` scans the frames three times: from the start, from the end, and
between the two places where these scans stop.

Main results:

- `silenceSpans_exact`: what it returns are the longest silent spans at the start, at the end and
  inside.
-/

namespace AudioBook.WaveAudio

open Numerics

/-! ## Spans of Elements With a Property -/

section Spans

variable {α : Type} {p : α → Bool} {l seen : List α} {k current longest : ℕ} {x : α}

/-- A list starts with `k` elements that have the property. -/
def StartsWith (p : α → Bool) (l : List α) (k : ℕ) : Prop :=
  ∃ span after, l = span ++ after ∧ (∀ x ∈ span, p x = true) ∧ span.length = k

/-- A list ends with `k` elements that have the property. -/
def EndsWith (p : α → Bool) (l : List α) (k : ℕ) : Prop :=
  ∃ before span, l = before ++ span ∧ (∀ x ∈ span, p x = true) ∧ span.length = k

/-- Somewhere in a list there are `k` elements in a row that have the property. -/
def HasRun (p : α → Bool) (l : List α) (k : ℕ) : Prop :=
  ∃ before span after, l = before ++ span ++ after ∧ (∀ x ∈ span, p x = true) ∧ span.length = k

/-- A run that is empty, or has elements without the property on both sides. -/
def HasInnerRun (p : α → Bool) (l : List α) (k : ℕ) : Prop :=
  ∃ before span after, l = before ++ span ++ after ∧ (∀ x ∈ span, p x = true) ∧ span.length = k ∧
    (span ≠ [] → (∃ x ∈ before, p x = false) ∧ ∃ x ∈ after, p x = false)

theorem startsWith_reverse : StartsWith p l.reverse k ↔ EndsWith p l k := by
  constructor
  · rintro ⟨span, after, hl, hspan, rfl⟩
    refine ⟨after.reverse, span.reverse, ?_, by simpa using hspan, by simp⟩
    rw [← List.reverse_append, ← hl, List.reverse_reverse]
  · rintro ⟨before, span, rfl, hspan, rfl⟩
    exact ⟨span.reverse, before.reverse, List.reverse_append, by simpa using hspan, by simp⟩

theorem isGreatest_startsWith : IsGreatest {k | StartsWith p l k} (l.takeWhile p).length := by
  refine ⟨⟨_, _, List.takeWhile_append_dropWhile.symm, ?_, rfl⟩, ?_⟩
  · exact fun x hx => List.mem_takeWhile_imp hx
  rintro k ⟨span, after, rfl, hspan, rfl⟩
  rw [List.takeWhile_append_of_pos hspan, List.length_append]
  exact Nat.le_add_right _ _

theorem isGreatest_endsWith : IsGreatest {k | EndsWith p l k} (l.reverse.takeWhile p).length := by
  simp only [← startsWith_reverse]
  exact isGreatest_startsWith

theorem endsWith_concat : EndsWith p (seen ++ [x]) k ↔
    k = 0 ∨ p x = true ∧ ∃ j, EndsWith p seen j ∧ k = j + 1 := by
  constructor
  · rintro ⟨before, span, heq, hspan, rfl⟩
    rcases List.eq_nil_or_concat' span with rfl | ⟨span, y, rfl⟩
    · exact .inl rfl
    · rw [← List.append_assoc] at heq
      obtain ⟨rfl, hxy⟩ := List.append_inj' heq rfl
      obtain rfl := List.singleton_inj.mp hxy
      exact .inr ⟨hspan x (by simp), _,
        ⟨before, span, rfl, fun y hy => hspan y (by simp [hy]), rfl⟩, by simp⟩
  · rintro (rfl | ⟨hx, j, ⟨before, span, rfl, hspan, rfl⟩, rfl⟩)
    · exact ⟨seen ++ [x], [], by simp⟩
    · refine ⟨before, span ++ [x], by simp, fun y hy => ?_, by simp⟩
      rcases List.mem_append.mp hy with hy | hy
      · exact hspan y hy
      · rwa [List.mem_singleton.mp hy]

theorem hasRun_concat :
    HasRun p (seen ++ [x]) k ↔ HasRun p seen k ∨ EndsWith p (seen ++ [x]) k := by
  constructor
  · rintro ⟨before, span, after, heq, hspan, rfl⟩
    rcases List.eq_nil_or_concat' after with rfl | ⟨after, y, rfl⟩
    · exact .inr ⟨before, span, by simpa using heq, hspan, rfl⟩
    · rw [← List.append_assoc] at heq
      exact .inl ⟨before, span, after, (List.append_inj' heq rfl).1, hspan, rfl⟩
  · rintro (⟨before, span, after, rfl, hspan, rfl⟩ | ⟨before, span, heq, hspan, rfl⟩)
    · exact ⟨before, span, after ++ [x], by simp, hspan, rfl⟩
    · exact ⟨before, span, [], by simpa using heq, hspan, rfl⟩

/-- What the loop knows about the elements that it has seen. -/
structure Scanned (p : α → Bool) (seen : List α) (current longest : ℕ) : Prop where
  current : IsGreatest {k | EndsWith p seen k} current
  longest : IsGreatest {k | HasRun p seen k} longest

theorem scanned_nil : Scanned p [] 0 0 where
  current := ⟨⟨[], [], rfl, by simp⟩, by rintro k ⟨before, span, heq, -, rfl⟩; simp_all⟩
  longest := ⟨⟨[], [], [], rfl, by simp⟩, by rintro k ⟨before, span, after, heq, -, rfl⟩; simp_all⟩

theorem Scanned.of_true (h : Scanned p seen current longest) (hx : p x = true) :
    Scanned p (seen ++ [x]) (current + 1) (max longest (current + 1)) := by
  have hcurrent : IsGreatest {k | EndsWith p (seen ++ [x]) k} (current + 1) := by
    refine ⟨endsWith_concat.mpr (.inr ⟨hx, _, h.current.1, rfl⟩), fun k hk => ?_⟩
    rcases endsWith_concat.mp hk with rfl | ⟨-, j, hj, rfl⟩
    · exact Nat.zero_le _
    · exact Nat.succ_le_succ (h.current.2 hj)
  refine ⟨hcurrent, ?_⟩
  -- a run is an older one or ends here
  simp only [hasRun_concat]
  exact h.longest.union hcurrent

theorem Scanned.of_false (h : Scanned p seen current longest) (hx : p x = false) :
    Scanned p (seen ++ [x]) 0 longest := by
  have hends : ∀ k, EndsWith p (seen ++ [x]) k ↔ k = 0 := fun k => by simp [endsWith_concat, hx]
  refine ⟨?_, hasRun_concat.mpr (.inl h.longest.1), fun k hk => ?_⟩
  · simp only [hends]
    exact isGreatest_singleton
  · rcases hasRun_concat.mp hk with hk | hk
    · exact h.longest.2 hk
    · rw [(hends k).mp hk]
      exact Nat.zero_le _

theorem hasInnerRun_iff {lead core trail : List α} (hlead : ∀ x ∈ lead, p x = true)
    (htrail : ∀ x ∈ trail, p x = true) (hhead : ∃ x ∈ core.head?, p x = false)
    (hlast : ∃ x ∈ core.getLast?, p x = false) :
    HasInnerRun p (lead ++ core ++ trail) k ↔ HasRun p core k := by
  constructor
  · rintro ⟨before, span, after, heq, hspan, rfl, hinner⟩
    rcases eq_or_ne span [] with rfl | hne
    · exact ⟨[], [], core, rfl, by simp⟩
    obtain ⟨⟨x, hx, hpx⟩, y, hy, hpy⟩ := hinner hne
    -- the lead ends inside what is before the run, and the trail starts inside what is behind it
    obtain ⟨before', rfl⟩ : ∃ before', before = lead ++ before' := by
      rw [List.append_assoc, List.append_assoc] at heq
      rcases List.append_eq_append_iff.mp heq with ⟨rest, rfl, -⟩ | ⟨rest, rfl, -⟩
      · exact ⟨rest, rfl⟩
      · simp [hlead x (List.mem_append_left _ hx)] at hpx
    obtain ⟨after', rfl⟩ : ∃ after', after = after' ++ trail := by
      rcases List.append_eq_append_iff.mp heq with ⟨rest, -, rfl⟩ | ⟨rest, -, rfl⟩
      · simp [htrail y (List.mem_append_right _ hy)] at hpy
      · exact ⟨rest, rfl⟩
    refine ⟨before', span, after', ?_, hspan, rfl⟩
    have hcore : lead ++ core ++ trail = lead ++ (before' ++ span ++ after') ++ trail := by
      simpa using heq
    exact List.append_cancel_left (List.append_cancel_right hcore)
  · rintro ⟨before, span, after, rfl, hspan, rfl⟩
    refine ⟨lead ++ before, span, after ++ trail, by simp, hspan, rfl, fun hne => ?_⟩
    obtain ⟨y, span', rfl⟩ := List.exists_cons_of_ne_nil hne
    obtain ⟨x, hx, hpx⟩ := hhead
    obtain ⟨z, hz, hpz⟩ := hlast
    constructor
    -- the first element of the core stands before the run, and the last behind it
    · cases before with
      | nil => simp_all
      | cons b before => exact ⟨x, by simp_all, hpx⟩
    · rcases List.eq_nil_or_concat' after with rfl | ⟨after, a, rfl⟩
      · have hmem : z ∈ y :: span' := by
          rw [List.append_nil, List.getLast?_append_of_ne_nil _ hne] at hz
          exact List.mem_of_getLast? hz
        simp [hspan z hmem] at hpz
      · rw [← List.append_assoc, List.getLast?_concat] at hz
        exact ⟨z, by simp [Option.mem_some.mp hz], hpz⟩

end Spans

/-! ## The Scans -/

variable {magnitudes : List ℚ} {floor : ℚ}

def isSilent (floor : ℚ) (magnitude : ℚ) : Bool := decide (magnitude < floor)

/-- `_silence_spans`; `none` if it divides by zero. -/
def silenceSpansMs (magnitudes : List ℚ) (floor : ℚ) (sampleRate : ℕ) : Option (ℤ × ℤ × ℤ) :=
  if sampleRate = 0 then none
  else
    let (leading, trailing, internal) := silenceSpans magnitudes floor
    some (framesToMs leading sampleRate, framesToMs trailing sampleRate,
      framesToMs internal sampleRate)

theorem isGreatest_longestSilence {seen rest : List ℚ} {current longest : ℕ}
    (h : Scanned (isSilent floor) seen current longest) :
    IsGreatest {k | HasRun (isSilent floor) (seen ++ rest) k}
      (longestSilence floor current longest rest) := by
  induction rest generalizing seen current longest with
  | nil =>
    rw [longestSilence, List.append_nil]
    exact h.longest
  | cons magnitude rest ih =>
    rw [longestSilence, List.append_cons]
    split
    case isTrue hlt => exact ih (h.of_true (decide_eq_true hlt))
    case isFalse hlt => exact ih (h.of_false (decide_eq_false hlt))

theorem dropWhile_eq_cons {p : ℚ → Bool} {l : List ℚ} (h : ∃ x ∈ l, p x = false) :
    ∃ x rest, l.dropWhile p = x :: rest ∧ p x = false := by
  cases heq : l.dropWhile p with
  | nil =>
    obtain ⟨x, hx, hpx⟩ := h
    rw [List.dropWhile_eq_nil_iff.mp heq x hx] at hpx
    cases hpx
  | cons x rest =>
    have hhead := List.head?_dropWhile_not p l
    rw [heq] at hhead
    exact ⟨x, rest, rfl, by simpa using hhead⟩

theorem exists_core (h : ∃ m ∈ magnitudes, isSilent floor m = false) :
    ∃ core, magnitudes = magnitudes.takeWhile (isSilent floor) ++ core ++
        (magnitudes.reverse.takeWhile (isSilent floor)).reverse ∧
      (∃ m ∈ core.head?, isSilent floor m = false) ∧
      ∃ m ∈ core.getLast?, isSilent floor m = false := by
  obtain ⟨first, rest, hfront, hfirst⟩ := dropWhile_eq_cons h
  obtain ⟨last, rest', hback, hlast⟩ :=
    dropWhile_eq_cons (l := (first :: rest).reverse) ⟨first, by simp, hfirst⟩
  have hsplit : magnitudes = magnitudes.takeWhile (isSilent floor) ++ (first :: rest) := by
    rw [← hfront, List.takeWhile_append_dropWhile]
  have hsplit' : (first :: rest).reverse =
      (first :: rest).reverse.takeWhile (isSilent floor) ++ (last :: rest') := by
    rw [← hback, List.takeWhile_append_dropWhile]
  -- the scan from the end stops before it meets the silence at the start
  have htrail : magnitudes.reverse.takeWhile (isSilent floor) =
      (first :: rest).reverse.takeWhile (isSilent floor) := by
    conv_lhs => rw [hsplit, List.reverse_append, hsplit', List.append_assoc]
    rw [List.takeWhile_append_of_pos fun x hx => List.mem_takeWhile_imp hx, List.cons_append,
      List.takeWhile_cons_of_neg (by simp [hlast]), List.append_nil]
  have hcore : first :: rest = (last :: rest').reverse ++
      (magnitudes.reverse.takeWhile (isSilent floor)).reverse := by
    rw [htrail, ← List.reverse_append, ← hsplit', List.reverse_reverse]
  refine ⟨(last :: rest').reverse, ?_, ⟨first, ?_, hfirst⟩, last, by simp, hlast⟩
  · rw [List.append_assoc, ← hcore]
    exact hsplit
  · have hhead := congrArg List.head? hcore
    rw [List.head?_append_of_ne_nil _ (by simp)] at hhead
    exact hhead.symm

theorem silenceSpans_of_loud (h : ∃ m ∈ magnitudes, isSilent floor m = false) :
    ∃ internal, silenceSpans magnitudes floor =
        ((magnitudes.takeWhile (isSilent floor)).length,
          (magnitudes.reverse.takeWhile (isSilent floor)).length, internal) ∧
      IsGreatest {k | HasInnerRun (isSilent floor) magnitudes k} internal := by
  obtain ⟨core, hsplit, hhead, hlast⟩ := exists_core h
  have hinner (k : ℕ) :
      HasInnerRun (isSilent floor) magnitudes k ↔ HasRun (isSilent floor) core k := by
    conv_lhs => rw [hsplit]
    exact hasInnerRun_iff (fun x hx => List.mem_takeWhile_imp hx)
      (fun x hx => List.mem_takeWhile_imp (List.mem_reverse.mp hx)) hhead hlast
  have hne : core ≠ [] := by
    rintro rfl
    simp at hhead
  have hlength := congrArg List.length hsplit
  simp only [List.length_append, List.length_reverse] at hlength
  have hpos := List.length_pos_of_ne_nil hne
  -- the slice that the third scan gets
  have hmiddle : (magnitudes.take (magnitudes.length -
      (magnitudes.reverse.takeWhile (isSilent floor)).length)).drop
        (magnitudes.takeWhile (isSilent floor)).length = core := by
    have htake : magnitudes.take (magnitudes.length -
        (magnitudes.reverse.takeWhile (isSilent floor)).length) =
          magnitudes.takeWhile (isSilent floor) ++ core := by
      conv_lhs => rw [hsplit]
      refine List.take_left' ?_
      rw [List.length_append]
      grind
    rw [htake, List.drop_left]
  refine ⟨longestSilence floor 0 0 core, ?_, ?_⟩
  · show (if (magnitudes.takeWhile (isSilent floor)).length = magnitudes.length then _ else _) = _
    rw [if_neg (by omega)]
    exact Prod.ext rfl (Prod.ext rfl (congrArg (longestSilence floor 0 0) hmiddle))
  · simp only [hinner]
    exact isGreatest_longestSilence scanned_nil

theorem forall_isSilent (h : (silenceSpans magnitudes floor).1 = magnitudes.length) :
    ∀ m ∈ magnitudes, isSilent floor m = true := by
  by_contra hsilent
  obtain ⟨m, hm, hloud⟩ : ∃ m ∈ magnitudes, isSilent floor m = false := by simpa using hsilent
  obtain ⟨internal, hspans, -⟩ := silenceSpans_of_loud ⟨m, hm, hloud⟩
  rw [hspans] at h
  have hall := List.takeWhile_eq_self_iff.mp
    ((List.takeWhile_prefix (isSilent floor)).eq_of_length h)
  rw [hall m hm] at hloud
  cases hloud

theorem silenceSpans_of_silent (h : ∀ m ∈ magnitudes, isSilent floor m = true) :
    silenceSpans magnitudes floor = (magnitudes.length, 0, 0) := by
  show (if (magnitudes.takeWhile (isSilent floor)).length = magnitudes.length then _ else _) = _
  rw [if_pos (congrArg List.length (List.takeWhile_eq_self_iff.mpr h))]

theorem silenceSpansMs_eq {sampleRate : ℕ} (hrate : 0 < sampleRate) :
    silenceSpansMs magnitudes floor sampleRate =
      some (framesToMs (silenceSpans magnitudes floor).1 sampleRate,
        framesToMs (silenceSpans magnitudes floor).2.1 sampleRate,
        framesToMs (silenceSpans magnitudes floor).2.2 sampleRate) :=
  if_neg hrate.ne'

theorem framesToMs_zero (sampleRate : ℕ) : framesToMs 0 sampleRate = 0 := by
  have hzero : fl 0 = 0 := by decide +kernel
  rw [framesToMs, Nat.cast_zero, zero_mul, zero_div, hzero]
  exact roundEven_intCast 0

/-- The spans that `_silence_spans` measures, in frames, and what it returns for them. -/
theorem silenceSpans_exact {sampleRate : ℕ} (hrate : 0 < sampleRate) :
    ∃ leading trailing internal,
      silenceSpansMs magnitudes floor sampleRate =
        some (framesToMs leading sampleRate, framesToMs trailing sampleRate,
          framesToMs internal sampleRate) ∧
      ((leading, trailing, internal) = (magnitudes.length, 0, 0) ↔
        ∀ m ∈ magnitudes, isSilent floor m = true) ∧
      ((∀ m ∈ magnitudes, isSilent floor m = true) →
        silenceSpansMs magnitudes floor sampleRate =
          some (framesToMs magnitudes.length sampleRate, 0, 0)) ∧
      ((∃ m ∈ magnitudes, isSilent floor m = false) →
        IsGreatest {k | StartsWith (isSilent floor) magnitudes k} leading ∧
        IsGreatest {k | EndsWith (isSilent floor) magnitudes k} trailing ∧
        IsGreatest {k | HasInnerRun (isSilent floor) magnitudes k} internal) := by
  refine ⟨_, _, _, silenceSpansMs_eq hrate,
    ⟨fun heq => forall_isSilent (congrArg Prod.fst heq), silenceSpans_of_silent⟩, fun h => ?_,
    fun h => ?_⟩
  · rw [silenceSpansMs_eq hrate, silenceSpans_of_silent h, framesToMs_zero]
  · obtain ⟨internal, hspans, hgreatest⟩ := silenceSpans_of_loud h
    rw [hspans]
    exact ⟨isGreatest_startsWith, isGreatest_endsWith, hgreatest⟩

theorem silenceSpans_exact_speech :
    ∃ leading trailing internal,
      silenceSpansMs [0, 1, 0, 0, 1, 0] (1 / 2) 1000 =
        some (framesToMs leading 1000, framesToMs trailing 1000, framesToMs internal 1000) ∧
      ((leading, trailing, internal) = (6, 0, 0) ↔
        ∀ m ∈ [0, 1, 0, 0, 1, 0], isSilent (1 / 2) m = true) ∧
      ((∀ m ∈ [0, 1, 0, 0, 1, 0], isSilent (1 / 2) m = true) →
        silenceSpansMs [0, 1, 0, 0, 1, 0] (1 / 2) 1000 = some (framesToMs 6 1000, 0, 0)) ∧
      ((∃ m ∈ [0, 1, 0, 0, 1, 0], isSilent (1 / 2) m = false) →
        IsGreatest {k | StartsWith (isSilent (1 / 2)) [0, 1, 0, 0, 1, 0] k} leading ∧
        IsGreatest {k | EndsWith (isSilent (1 / 2)) [0, 1, 0, 0, 1, 0] k} trailing ∧
        IsGreatest {k | HasInnerRun (isSilent (1 / 2)) [0, 1, 0, 0, 1, 0] k} internal) :=
  silenceSpans_exact (by decide)

/-- In rounded milliseconds one frame that is not silent cannot be told from a silent one. -/
theorem not_forall_silentExactly :
    ¬ ∀ (magnitudes : List ℚ) (floor : ℚ) (sampleRate : ℕ), magnitudes ≠ [] → 0 < sampleRate →
      (silenceSpansMs magnitudes floor sampleRate =
          some (framesToMs magnitudes.length sampleRate, 0, 0) ↔
        ∀ m ∈ magnitudes, isSilent floor m = true) := by
  intro h
  have hsilent := (h [1] (1 / 2) 44100 (by simp) (by decide)).mp (by decide +kernel)
  exact absurd (hsilent 1 (by simp)) (by decide +kernel)

end AudioBook.WaveAudio
