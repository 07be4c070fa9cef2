import AudioBook.Tts.Capability

/-!
# The Pauses of a Chapter

A pause that the Director asks for is not the engine's to make: `negotiate` records no gap for it,
and `assembleChapterAudio` puts it into the chapter as silence. The audio is seen here as what is
heard in it, one segment after the other. The canonical rate has a whole number of samples in a
millisecond, so that a silence of some milliseconds has exactly that length.

Main results:

- `noPauseLost_iff`: the pauses that are lost are the ones inside a chunk.
-/

namespace AudioBook.Mastering

open ChunkEdits (Pause)
open Capability (ProviderCapabilities PerformanceIntent Negotiation negotiate)

/-- A chunk with audio: the intent that the engine was asked for, and what it negotiated. -/
structure SynthesisedChunk (u : PythonText) where
  text : Text
  capabilities : ProviderCapabilities
  emotionCapabilityMap : List (Text × Text)
  performance : PerformanceIntent
  language : Text
  negotiation : Negotiation
  negotiated : negotiate u capabilities emotionCapabilityMap performance language text.length =
    .ok negotiation

/-- What is heard in a piece of audio. -/
inductive Segment
  | silence (durationMs : ℕ)
  | speech (text : Text)
  deriving DecidableEq

def sumPauseMs (pauses : List Pause) (position : String) : ℕ :=
  pauses.foldl (fun total p => if p.position = position then total + p.durationMs else total) 0

variable {u : PythonText}

/-- A silence file, where there is something to put into it. -/
def pausePiece (durationMs : ℕ) : List Segment :=
  if 0 < durationMs then [.silence durationMs] else []

/-- `pieces`, which become the final file of a chunk. -/
def chunkFinal (chunk : SynthesisedChunk u) : List Segment :=
  pausePiece (sumPauseMs chunk.performance.pauses "LEADING") ++ [.speech chunk.text] ++
    pausePiece (sumPauseMs chunk.performance.pauses "TRAILING")

/-- `assembleChapterAudio`: the final files of the chunks, one behind the other. -/
def assembleChapterAudio (chunks : List (SynthesisedChunk u)) : List Segment :=
  chunks.flatMap chunkFinal

/-! ## What Is Heard and What Is Asked For -/

/-- The silence at the moment when so many characters are spoken. -/
def silenceAt (moment : ℕ) : ℕ → List Segment → ℕ
  | _, [] => 0
  | spoken, .silence durationMs :: rest =>
      (if spoken = moment then durationMs else 0) + silenceAt moment spoken rest
  | spoken, .speech text :: rest => silenceAt moment (spoken + text.length) rest

/-- The characters of a chunk that are spoken before a pause of it. -/
def charPosition (text : Text) (p : Pause) : ℕ :=
  if p.position = "LEADING" then 0
  else if p.position = "TRAILING" then text.length
  else p.offsetChars.getD 0

/-- What a pause asks for at a moment, in a chunk that starts at `spoken`. -/
def pauseAt (moment spoken : ℕ) (text : Text) (p : Pause) : ℕ :=
  if spoken + charPosition text p = moment then p.durationMs else 0

def askedOf (which : Pause → Bool) (moment spoken : ℕ) (text : Text) (pauses : List Pause) : ℕ :=
  ((pauses.filter which).map (pauseAt moment spoken text)).sum

def askedAt (which : Pause → Bool) (moment : ℕ) : ℕ → List (SynthesisedChunk u) → ℕ
  | _, [] => 0
  | spoken, chunk :: rest =>
      askedOf which moment spoken chunk.text chunk.performance.pauses +
        askedAt which moment (spoken + chunk.text.length) rest

def charsOf (chunks : List (SynthesisedChunk u)) : ℕ :=
  (chunks.map fun chunk => chunk.text.length).sum

/-- The silence at a moment is what all pauses of the moment ask for together. -/
def HeardAt (chunks : List (SynthesisedChunk u)) (moment : ℕ) : Prop :=
  silenceAt moment 0 (assembleChapterAudio chunks) = askedAt (fun _ => true) moment 0 chunks

instance (chunks : List (SynthesisedChunk u)) (moment : ℕ) : Decidable (HeardAt chunks moment) :=
  inferInstanceAs (Decidable (_ = _))

/-- Every pause is heard at its moment, or the gaps of its chunk say that it is not rendered. -/
def NoPauseLost (chunks : List (SynthesisedChunk u)) : Prop :=
  ∀ before chunk after, chunks = before ++ chunk :: after →
    ∀ p ∈ chunk.performance.pauses,
      HeardAt chunks (charsOf before + charPosition chunk.text p) ∨
        ∃ gap ∈ chunk.negotiation.gaps, gap.field = .pauses

/-! ## The Silence of a Chapter -/

/-- The pauses that `assembleChapterAudio` reads. -/
def atAnEnd (p : Pause) : Bool := p.position = "LEADING" ∨ p.position = "TRAILING"

theorem foldl_sumPauseMs (position : String) (pauses : List Pause) (total : ℕ) :
    pauses.foldl (fun total p => if p.position = position then total + p.durationMs else total)
      total = total + sumPauseMs pauses position := by
  unfold sumPauseMs
  induction pauses generalizing total with
  | nil => simp
  | cons p pauses ih =>
    simp only [List.foldl_cons]
    rw [ih, ih (if p.position = position then 0 + p.durationMs else 0)]
    split <;> omega

theorem sumPauseMs_cons (p : Pause) (pauses : List Pause) (position : String) :
    sumPauseMs (p :: pauses) position =
      (if p.position = position then p.durationMs else 0) + sumPauseMs pauses position := by
  rw [sumPauseMs, List.foldl_cons, foldl_sumPauseMs]
  split <;> omega

theorem askedOf_cons (which : Pause → Bool) (moment spoken : ℕ) (text : Text) (p : Pause)
    (pauses : List Pause) :
    askedOf which moment spoken text (p :: pauses) =
      (if which p then pauseAt moment spoken text p else 0) +
        askedOf which moment spoken text pauses := by
  unfold askedOf
  rw [List.filter_cons]
  split_ifs <;> simp

variable (moment : ℕ)

theorem askedOf_atAnEnd (spoken : ℕ) (text : Text) (pauses : List Pause) :
    askedOf atAnEnd moment spoken text pauses =
      (if spoken = moment then sumPauseMs pauses "LEADING" else 0) +
        (if spoken + text.length = moment then sumPauseMs pauses "TRAILING" else 0) := by
  induction pauses with
  | nil => simp [askedOf, sumPauseMs]
  | cons p pauses ih =>
    rw [sumPauseMs_cons, sumPauseMs_cons, askedOf_cons, ih, pauseAt, charPosition]
    -- a pause stands at the start, at the end, or inside, where nobody reads it
    by_cases hlead : p.position = "LEADING"
    · have hend : atAnEnd p = true := decide_eq_true (.inl hlead)
      have htrail : p.position ≠ "TRAILING" := by simp [hlead]
      rw [if_pos hend, if_pos hlead, if_pos hlead, if_neg htrail]
      split_ifs <;> omega
    · by_cases htrail : p.position = "TRAILING"
      · have hend : atAnEnd p = true := decide_eq_true (.inr htrail)
        rw [if_pos hend, if_neg hlead, if_pos htrail, if_neg hlead, if_pos htrail]
        split_ifs <;> omega
      · have hinside : ¬ atAnEnd p = true := fun h => (of_decide_eq_true h).elim hlead htrail
        rw [if_neg hinside, if_neg hlead, if_neg htrail]
        simp only [Nat.zero_add]

theorem silenceAt_pausePiece (spoken durationMs : ℕ) (rest : List Segment) :
    silenceAt moment spoken (pausePiece durationMs ++ rest) =
      (if spoken = moment then durationMs else 0) + silenceAt moment spoken rest := by
  unfold pausePiece
  -- there is no file for a pause of no length
  by_cases hpos : 0 < durationMs
  · rw [if_pos hpos, List.singleton_append, silenceAt]
  · obtain rfl : durationMs = 0 := by omega
    rw [if_neg hpos, List.nil_append, ite_self, Nat.zero_add]

theorem silenceAt_chunkFinal (spoken : ℕ) (chunk : SynthesisedChunk u) (rest : List Segment) :
    silenceAt moment spoken (chunkFinal chunk ++ rest) =
      askedOf atAnEnd moment spoken chunk.text chunk.performance.pauses +
        silenceAt moment (spoken + chunk.text.length) rest := by
  rw [chunkFinal, List.append_assoc, List.append_assoc, silenceAt_pausePiece, List.singleton_append,
    silenceAt, silenceAt_pausePiece, askedOf_atAnEnd, Nat.add_assoc]

theorem silenceAt_assembleChapterAudio (spoken : ℕ) (chunks : List (SynthesisedChunk u)) :
    silenceAt moment spoken (assembleChapterAudio chunks) =
      askedAt atAnEnd moment spoken chunks := by
  induction chunks generalizing spoken with
  | nil => rfl
  | cons chunk chunks ih =>
    rw [assembleChapterAudio, List.flatMap_cons, silenceAt_chunkFinal, askedAt]
    exact congrArg _ (ih _)

/-! ## The Pauses Inside a Chunk -/

theorem askedOf_split (spoken : ℕ) (text : Text) (pauses : List Pause) :
    askedOf (fun _ => true) moment spoken text pauses =
      askedOf atAnEnd moment spoken text pauses +
        askedOf (fun p => !atAnEnd p) moment spoken text pauses := by
  induction pauses with
  | nil => rfl
  | cons p pauses ih =>
    rw [askedOf_cons, askedOf_cons, askedOf_cons, ih]
    cases atAnEnd p <;> simp <;> omega

theorem askedAt_split (spoken : ℕ) (chunks : List (SynthesisedChunk u)) :
    askedAt (fun _ => true) moment spoken chunks =
      askedAt atAnEnd moment spoken chunks +
        askedAt (fun p => !atAnEnd p) moment spoken chunks := by
  induction chunks generalizing spoken with
  | nil => rfl
  | cons chunk chunks ih =>
    rw [askedAt, askedAt, askedAt, askedOf_split, ih]
    omega

theorem heardAt_iff (chunks : List (SynthesisedChunk u)) (moment : ℕ) :
    HeardAt chunks moment ↔ askedAt (fun p => !atAnEnd p) moment 0 chunks = 0 := by
  rw [HeardAt, silenceAt_assembleChapterAudio, askedAt_split]
  omega

theorem le_askedAt (which : Pause → Bool) {chunk : SynthesisedChunk u} {p : Pause}
    (hp : p ∈ chunk.performance.pauses) (hwhich : which p)
    (before after : List (SynthesisedChunk u)) (spoken : ℕ) :
    p.durationMs ≤ askedAt which (spoken + charsOf before + charPosition chunk.text p) spoken
      (before ++ chunk :: after) := by
  induction before generalizing spoken with
  | nil =>
    have hmem : p.durationMs ∈ (chunk.performance.pauses.filter which).map
        (pauseAt (spoken + charPosition chunk.text p) spoken chunk.text) :=
      List.mem_map.mpr ⟨p, List.mem_filter.mpr ⟨hp, hwhich⟩, if_pos rfl⟩
    have hle := List.le_sum_of_mem hmem
    simp only [charsOf, List.map_nil, List.sum_nil, Nat.add_zero, List.nil_append, askedAt]
    exact Nat.le_add_right_of_le hle
  | cons first before ih =>
    have hmoment : spoken + charsOf (first :: before) =
        spoken + first.text.length + charsOf before := by
      simp only [charsOf, List.map_cons, List.sum_cons]
      omega
    rw [hmoment, List.cons_append, askedAt]
    exact Nat.le_add_left_of_le (ih _)

theorem askedAt_eq_zero {which : Pause → Bool} {chunks : List (SynthesisedChunk u)}
    (h : ∀ chunk ∈ chunks, ∀ p ∈ chunk.performance.pauses, which p → p.durationMs = 0)
    (moment spoken : ℕ) : askedAt which moment spoken chunks = 0 := by
  induction chunks generalizing spoken with
  | nil => rfl
  | cons chunk chunks ih =>
    have hchunk : askedOf which moment spoken chunk.text chunk.performance.pauses = 0 := by
      refine List.sum_eq_zero fun duration hduration => ?_
      obtain ⟨p, hp, rfl⟩ := List.mem_map.mp hduration
      obtain ⟨hmem, hwhich⟩ := List.mem_filter.mp hp
      rw [pauseAt, h chunk List.mem_cons_self p hmem hwhich, ite_self]
    rw [askedAt, hchunk, ih fun c hc => h c (List.mem_cons_of_mem _ hc)]

theorem field_ne_pauses (chunk : SynthesisedChunk u) :
    ∀ gap ∈ chunk.negotiation.gaps, gap.field ≠ .pauses := by
  intro gap hgap hfield
  have hnegotiated := chunk.negotiated
  unfold negotiate at hnegotiated
  split_ifs at hnegotiated
  rw [← Except.ok.inj hnegotiated] at hgap
  simp only [Capability.capabilityGaps_eq, List.mem_flatMap] at hgap
  obtain ⟨i, -, hmem⟩ := hgap
  have hof := Capability.isGapOf_of_mem hmem
  have hi : i = .pauses := hof.field.symm.trans hfield
  subst hi
  -- pauses count as taken, by the audio processing
  exact hof.notTaken trivial

/-- The pauses that are lost are those inside a chunk. -/
theorem noPauseLost_iff (chunks : List (SynthesisedChunk u)) :
    NoPauseLost chunks ↔ ∀ chunk ∈ chunks, ∀ p ∈ chunk.performance.pauses,
      p.position = "LEADING" ∨ p.position = "TRAILING" ∨ p.durationMs = 0 := by
  constructor
  · intro h chunk hchunk p hp
    obtain ⟨before, after, rfl⟩ := List.append_of_mem hchunk
    rcases h before chunk after rfl p hp with hheard | ⟨gap, hgap, hfield⟩
    · by_cases hend : atAnEnd p
      · rcases of_decide_eq_true hend with hlead | htrail
        · exact .inl hlead
        · exact .inr (.inl htrail)
      · have hinside : (!atAnEnd p) = true := by simpa using hend
        -- its own length is part of what is asked for and not heard
        have hle := le_askedAt (fun p => !atAnEnd p) hp hinside before after 0
        rw [Nat.zero_add, (heardAt_iff _ _).mp hheard] at hle
        exact .inr (.inr (Nat.le_zero.mp hle))
    · exact absurd hfield (field_ne_pauses chunk gap hgap)
  · rintro h before chunk after rfl p -
    refine .inl ((heardAt_iff _ _).mpr (askedAt_eq_zero ?_ _ _))
    intro c hc q hq hin
    have hnot : ¬ (q.position = "LEADING" ∨ q.position = "TRAILING") := by
      simpa [atAnEnd] using hin
    rcases h c hc q hq with hlead | htrail | hzero
    · exact absurd (.inl hlead) hnot
    · exact absurd (.inr htrail) hnot
    · exact hzero

/-! ## A Pause That Is Lost -/

/-- A chunk with a pause between two words. -/
def pausedChunk : SynthesisedChunk asciiText where
  text := "No. Never.".toList
  capabilities := Capability.engine true
  emotionCapabilityMap := []
  performance := { pauses := [{ position := "OFFSET", offsetChars := some 4, durationMs := 800 }] }
  language := "en-US".toList
  negotiation := _
  negotiated := rfl

theorem not_forall_noPauseLost :
    ¬ ∀ (u : PythonText) (chunks : List (SynthesisedChunk u)), NoPauseLost chunks := by
  intro h
  rcases h asciiText [pausedChunk] [] pausedChunk [] rfl _ List.mem_cons_self with
    hheard | ⟨gap, hgap, hfield⟩
  · exact absurd hheard (by decide)
  · exact field_ne_pauses pausedChunk gap hgap hfield

end AudioBook.Mastering
