import AudioBook.Director.Partition

/-!
# Where Sentences are Cut

`_split_to_budget` emits every sentence under the budget as a chunk of its own. A sentence that has
the budget or more is passed over to keep accumulating, and from there on no boundary stops the
loop: the rest of the span is cut in steps of the budget, through short sentences as well. So only
long sentences are cut if and only if none of these steps ends in a short sentence
(`cutsOnlyLongSentences_iff`).
-/

namespace AudioBook

open Intervals

/-- `boundaries[1:]`: the ends of the sentences of a span. -/
def sentenceEnds (text : Text) (start stop : ℕ) : List ℕ :=
  sentenceBoundaries start (((text.take start).getLast?.map endsSentence).getD false) false
    (slice text start stop) ++ [stop]

/-- What lies between the boundaries, from `start` on. -/
def sentencesFrom : ℕ → List ℕ → List (ℕ × ℕ)
  | _, [] => []
  | start, boundary :: boundaries => (start, boundary) :: sentencesFrom boundary boundaries

def sentences (text : Text) (start stop : ℕ) : List (ℕ × ℕ) :=
  sentencesFrom start (sentenceEnds text start stop)

/-- A position is strictly inside of a sentence. -/
def StrictlyInside (cut : ℕ) (sentence : ℕ × ℕ) : Prop :=
  sentence.1 < cut ∧ cut < sentence.2

/-- A chunk starts or stops inside of a sentence only where the sentence alone is over the budget. -/
def CutsOnlyLongSentences (text : Text) (maxChars start stop : ℕ) : Prop :=
  ∀ piece ∈ splitToBudget text maxChars start stop, ∀ cut ∈ [piece.1, piece.2],
    ∀ sentence ∈ sentences text start stop,
      StrictlyInside cut sentence → maxChars < sentence.2 - sentence.1

/-- The start of the first sentence, other than one that ends the span, that has the budget or
more. -/
def firstLong (maxChars stop : ℕ) (sentences : List (ℕ × ℕ)) : Option ℕ :=
  (sentences.find? fun sentence =>
    decide (maxChars ≤ sentence.2 - sentence.1 ∧ sentence.2 ≠ stop)).map Prod.fst

/-! ## Sentences -/

variable {maxChars : ℕ} {boundaries : List ℕ} {last : ℕ}

theorem sentencesFrom_bounds {start : ℕ} (hsorted : boundaries.Pairwise (· ≤ ·))
    (hbounds : ∀ boundary ∈ boundaries, start ≤ boundary ∧ boundary ≤ last) {sentence : ℕ × ℕ}
    (hmem : sentence ∈ sentencesFrom start boundaries) :
    start ≤ sentence.1 ∧ sentence.1 ≤ sentence.2 ∧ sentence.2 ≤ last := by
  induction boundaries generalizing start with
  | nil => simp [sentencesFrom] at hmem
  | cons boundary boundaries ih =>
      obtain ⟨hfirst, hsorted⟩ := List.pairwise_cons.mp hsorted
      obtain ⟨hstart, hlast⟩ := hbounds boundary List.mem_cons_self
      rcases List.mem_cons.mp hmem with rfl | hmem
      · exact ⟨le_refl _, hstart, hlast⟩
      · have h := ih hsorted (fun later hlater =>
          ⟨hfirst later hlater, (hbounds later (List.mem_cons_of_mem _ hlater)).2⟩) hmem
        exact ⟨le_trans hstart h.1, h.2⟩

theorem append_last {start : ℕ} (hle : start ≤ last) (hsorted : boundaries.Pairwise (· ≤ ·))
    (hbounds : ∀ boundary ∈ boundaries, start ≤ boundary ∧ boundary ≤ last) :
    (boundaries ++ [last]).Pairwise (· ≤ ·) ∧
      ∀ boundary ∈ boundaries ++ [last], start ≤ boundary ∧ boundary ≤ last := by
  constructor
  · rw [List.pairwise_append]
    exact ⟨hsorted, List.pairwise_singleton _ _,
      fun boundary hmem stop hstop => List.mem_singleton.mp hstop ▸ (hbounds boundary hmem).2⟩
  · intro boundary hmem
    rcases List.mem_append.mp hmem with hmem | hmem
    · exact hbounds boundary hmem
    · rw [List.mem_singleton.mp hmem]
      exact ⟨hle, le_refl _⟩

theorem firstLong_mem {stop p : ℕ} {sentences : List (ℕ × ℕ)}
    (hlong : firstLong maxChars stop sentences = some p) :
    ∃ sentence ∈ sentences, sentence.1 = p := by
  obtain ⟨sentence, hfind, hp⟩ := Option.map_eq_some_iff.mp hlong
  exact ⟨sentence, List.mem_of_find?_eq_some hfind, hp⟩

/-! ## The Loop -/

theorem start_of_mem_hardSplit (hmax : 0 < maxChars) (boundary cursor cut : ℕ) {fuel : ℕ}
    (hfuel : boundary - cursor ≤ fuel) :
    (∃ piece ∈ hardSplit maxChars boundary fuel cursor, piece.1 = cut) ↔
      ∃ k, cut = cursor + k * maxChars ∧ cut < boundary := by
  induction fuel generalizing cursor with
  | zero =>
      simp only [hardSplit, List.not_mem_nil, false_and, exists_false, false_iff]
      rintro ⟨k, rfl, hlt⟩
      have hle := Nat.le_add_right cursor (k * maxChars)
      omega
  | succ fuel ih =>
      rw [hardSplit]
      by_cases hlt : cursor < boundary
      · rw [if_pos hlt]
        have hrest := ih (min (cursor + maxChars) boundary) (by omega)
        simp only [List.mem_cons, exists_eq_or_imp, hrest]
        constructor
        · rintro (rfl | ⟨k, rfl, hcut⟩)
          · exact ⟨0, by simp, hlt⟩
          · -- the piece before was not the last one
            have hle := Nat.le_add_right (min (cursor + maxChars) boundary) (k * maxChars)
            refine ⟨k + 1, ?_, hcut⟩
            rw [Nat.succ_mul]
            omega
        · rintro ⟨k, rfl, hcut⟩
          cases k with
          | zero => exact .inl (by simp)
          | succ k =>
              rw [Nat.succ_mul] at hcut ⊢
              have hle := Nat.le_add_left maxChars (k * maxChars)
              exact .inr ⟨k, by omega, hcut⟩
      · rw [if_neg hlt]
        simp only [List.not_mem_nil, false_and, exists_false, false_iff]
        rintro ⟨k, rfl, hcut⟩
        have hle := Nat.le_add_right cursor (k * maxChars)
        omega

variable {piece : ℕ × ℕ}

theorem bounds_of_mem_hardSplit (hmax : 0 < maxChars) {boundary fuel cursor : ℕ}
    (hmem : piece ∈ hardSplit maxChars boundary fuel cursor) :
    cursor ≤ piece.1 ∧ piece.1 < piece.2 := by
  induction fuel generalizing cursor with
  | zero => simp [hardSplit] at hmem
  | succ fuel ih =>
      rw [hardSplit] at hmem
      split at hmem
      · rcases List.mem_cons.mp hmem with rfl | hmem
        · simp only
          omega
        · have h := ih hmem
          omega
      · simp at hmem

theorem pieceStart_le_of_mem (hmax : 0 < maxChars) {pieceStart : ℕ}
    (hsorted : boundaries.Pairwise (· ≤ ·))
    (hbounds : ∀ boundary ∈ boundaries, pieceStart ≤ boundary)
    (hmem : piece ∈ splitAtBoundaries maxChars last pieceStart boundaries) :
    pieceStart ≤ piece.1 := by
  induction boundaries generalizing pieceStart with
  | nil => simp [splitAtBoundaries] at hmem
  | cons boundary boundaries ih =>
      obtain ⟨hfirst, hsorted⟩ := List.pairwise_cons.mp hsorted
      have hstart := hbounds boundary List.mem_cons_self
      rw [splitAtBoundaries] at hmem
      split at hmem
      · exact ih hsorted (fun later hlater => hbounds later (List.mem_cons_of_mem _ hlater)) hmem
      · split at hmem
        · rcases List.mem_append.mp hmem with hmem | hmem
          · exact (bounds_of_mem_hardSplit hmax hmem).1
          · exact le_trans hstart (ih hsorted hfirst hmem)
        · rcases List.mem_cons.mp hmem with rfl | hmem
          · exact le_refl _
          · exact le_trans hstart (ih hsorted hfirst hmem)

theorem eq_of_mem_splitAtBoundaries_last (hlast : ∀ boundary ∈ boundaries, boundary = last)
    (hmem : piece ∈ splitAtBoundaries maxChars last last boundaries) : piece = (last, last) := by
  induction boundaries with
  | nil => simp [splitAtBoundaries] at hmem
  | cons boundary boundaries ih =>
      obtain rfl := hlast boundary List.mem_cons_self
      rw [splitAtBoundaries, if_neg (by simp), if_neg (by simp)] at hmem
      rcases List.mem_cons.mp hmem with rfl | hmem
      · rfl
      · exact ih (fun later hlater => hlast later (List.mem_cons_of_mem _ hlater)) hmem

theorem mem_splitAtBoundaries_of_long {pieceStart : ℕ} (boundaries : List ℕ)
    (hover : maxChars < last - pieceStart)
    (hlong : ∀ boundary ∈ boundaries, maxChars ≤ boundary - pieceStart)
    (hsorted : boundaries.Pairwise (· ≤ ·)) (hbounds : ∀ boundary ∈ boundaries, boundary ≤ last)
    (hpiece : piece.1 < piece.2) :
    piece ∈ splitAtBoundaries maxChars last pieceStart (boundaries ++ [last]) ↔
      piece ∈ hardSplit maxChars last (last - pieceStart) pieceStart := by
  induction boundaries with
  | nil =>
      rw [List.nil_append, splitAtBoundaries, if_neg (by simp), if_pos hover, splitAtBoundaries,
        List.append_nil]
  | cons boundary boundaries ih =>
      obtain ⟨hfirst, hsorted⟩ := List.pairwise_cons.mp hsorted
      rw [List.cons_append, splitAtBoundaries]
      by_cases hne : boundary ≠ last
      · rw [if_pos ⟨hlong boundary List.mem_cons_self, hne⟩]
        exact ih (fun later hlater => hlong later (List.mem_cons_of_mem _ hlater)) hsorted
          fun later hlater => hbounds later (List.mem_cons_of_mem _ hlater)
      · -- the boundary stands at the end of the span, and so do all later ones
        obtain rfl := not_not.mp hne
        rw [if_neg fun h => hne h.2, if_pos hover, List.mem_append]
        refine or_iff_left fun hmem => ?_
        have hempty := eq_of_mem_splitAtBoundaries_last (fun later hlater => ?_) hmem
        · rw [hempty] at hpiece
          exact lt_irrefl _ hpiece
        · rcases List.mem_append.mp hlater with hlater | hlater
          · exact le_antisymm (hbounds later (List.mem_cons_of_mem _ hlater)) (hfirst later hlater)
          · exact List.mem_singleton.mp hlater

theorem cut_iff_step (hmax : 0 < maxChars) {pieceStart : ℕ} (hle : pieceStart ≤ last)
    (hsorted : boundaries.Pairwise (· ≤ ·))
    (hbounds : ∀ boundary ∈ boundaries, pieceStart ≤ boundary ∧ boundary ≤ last) (sentence : ℕ × ℕ)
    (hmem : sentence ∈ sentencesFrom pieceStart (boundaries ++ [last]))
    (hshort : sentence.2 - sentence.1 ≤ maxChars) (cut : ℕ) (hinside : StrictlyInside cut sentence) :
    (∃ piece ∈ splitAtBoundaries maxChars last pieceStart (boundaries ++ [last]),
        piece.1 < piece.2 ∧ piece.1 = cut) ↔
      ∃ p k, firstLong maxChars last (sentencesFrom pieceStart (boundaries ++ [last])) = some p ∧
        cut = p + (k + 1) * maxChars := by
  obtain ⟨hafter, hbefore⟩ := hinside
  -- the induction follows the loop; the cut is never where the loop stands
  induction boundaries generalizing pieceStart with
  | nil =>
      -- the only sentence ends the span and is short, so it is one piece
      obtain rfl := List.mem_singleton.mp hmem
      have hlong : firstLong maxChars last (sentencesFrom pieceStart ([] ++ [last])) = none := by
        simp [sentencesFrom, firstLong]
      rw [hlong, List.nil_append, splitAtBoundaries, if_neg (by simp),
        if_neg (Nat.not_lt.mpr hshort), splitAtBoundaries]
      constructor
      · rintro ⟨piece, hpiece, -, rfl⟩
        obtain rfl := List.mem_singleton.mp hpiece
        exact absurd hafter (lt_irrefl _)
      · rintro ⟨p, k, hp, -⟩
        cases hp
  | cons boundary boundaries ih =>
      obtain ⟨hfirst, hsorted'⟩ := List.pairwise_cons.mp hsorted
      obtain ⟨hstart, hlast⟩ := hbounds boundary List.mem_cons_self
      have hbounds' : ∀ later ∈ boundaries, boundary ≤ later ∧ later ≤ last :=
        fun later hlater => ⟨hfirst later hlater, (hbounds later (List.mem_cons_of_mem _ hlater)).2⟩
      obtain ⟨hsortedLast, hboundsLast⟩ := append_last hlast hsorted' hbounds'
      rw [List.cons_append, sentencesFrom] at hmem ⊢
      by_cases hlong : maxChars ≤ boundary - pieceStart ∧ boundary ≠ last
      · -- the first long sentence: from here on the budget alone decides
        have hp : firstLong maxChars last
            ((pieceStart, boundary) :: sentencesFrom boundary (boundaries ++ [last]))
              = some pieceStart := by
          rw [firstLong, List.find?_cons_of_pos (by simpa using hlong), Option.map_some]
        have hover : maxChars < last - pieceStart := by omega
        have hstartSentence : pieceStart ≤ sentence.1 ∧ sentence.2 ≤ last := by
          rcases List.mem_cons.mp hmem with rfl | hmem
          · exact ⟨le_refl _, hlast⟩
          · have h := sentencesFrom_bounds hsortedLast hboundsLast hmem
            exact ⟨le_trans hstart h.1, h.2.2⟩
        have hpieces : ∀ piece : ℕ × ℕ, piece.1 < piece.2 →
            (piece ∈ splitAtBoundaries maxChars last pieceStart
                (boundary :: (boundaries ++ [last])) ↔
              piece ∈ hardSplit maxChars last (last - pieceStart) pieceStart) := by
          intro piece hpiece
          refine mem_splitAtBoundaries_of_long (boundary :: boundaries) hover ?_ hsorted
            (fun later hlater => (hbounds later hlater).2) hpiece
          intro later hlater
          rcases List.mem_cons.mp hlater with rfl | hlater
          · exact hlong.1
          · have h := hfirst later hlater
            omega
        have hcuts := start_of_mem_hardSplit hmax last pieceStart cut
          (le_refl (last - pieceStart))
        rw [hp]
        constructor
        · rintro ⟨piece, hpiece, hne, hcut⟩
          obtain ⟨k, hk, -⟩ := hcuts.mp ⟨piece, (hpieces piece hne).mp hpiece, hcut⟩
          cases k with
          | zero => omega
          | succ k => exact ⟨pieceStart, k, rfl, hk⟩
        · rintro ⟨p, k, hp, hcut⟩
          obtain rfl := Option.some.inj hp
          obtain ⟨piece, hpiece, hstart⟩ := hcuts.mpr ⟨k + 1, hcut, by omega⟩
          have hne := (bounds_of_mem_hardSplit hmax hpiece).2
          exact ⟨piece, (hpieces piece hne).mpr hpiece, hne, hstart⟩
      · -- not long, so the loop goes on after the sentence
        have hskip : firstLong maxChars last
            ((pieceStart, boundary) :: sentencesFrom boundary (boundaries ++ [last]))
              = firstLong maxChars last (sentencesFrom boundary (boundaries ++ [last])) := by
          rw [firstLong, firstLong, List.find?_cons_of_neg (by simpa using hlong)]
        rw [hskip, splitAtBoundaries, if_neg hlong]
        rcases List.mem_cons.mp hmem with rfl | hmem
        · -- the sentence itself: it is one piece, and everything else is after it
          rw [if_neg (Nat.not_lt.mpr hshort)]
          simp only at hafter hbefore
          constructor
          · rintro ⟨piece, hpiece, -, rfl⟩
            rcases List.mem_cons.mp hpiece with rfl | hpiece
            · exact absurd hafter (lt_irrefl _)
            · have h := pieceStart_le_of_mem hmax hsortedLast
                (fun later hlater => (hboundsLast later hlater).1) hpiece
              omega
          · rintro ⟨p, k, hp, rfl⟩
            obtain ⟨later, hlater, rfl⟩ := firstLong_mem hp
            have h := (sentencesFrom_bounds hsortedLast hboundsLast hlater).1
            have hstep := Nat.le_add_right later.1 ((k + 1) * maxChars)
            omega
        · have hsentence := sentencesFrom_bounds hsortedLast hboundsLast hmem
          rw [← ih hlast hsorted' hbounds' hmem]
          split
          · -- a long sentence that ends the span leaves nothing after it
            next hover => omega
          · constructor
            · rintro ⟨piece, hpiece, hne, rfl⟩
              rcases List.mem_cons.mp hpiece with rfl | hpiece
              · simp only at hafter
                omega
              · exact ⟨piece, hpiece, hne, rfl⟩
            · rintro ⟨piece, hpiece, h⟩
              exact ⟨piece, List.mem_cons_of_mem _ hpiece, h⟩

/-! ## The Span -/

/-- Only sentences over the budget are cut if and only if no step of the budget, counted from the
first sentence that has the budget or more and does not end the span, ends in a short one. -/
theorem cutsOnlyLongSentences_iff {text : Text} {maxChars start stop : ℕ} (hmax : 1 ≤ maxChars)
    (hstop : stop ≤ text.length) (hover : maxChars < stop - start) :
    CutsOnlyLongSentences text maxChars start stop ↔
      ∀ p, firstLong maxChars stop (sentences text start stop) = some p →
        ∀ k, ∀ sentence ∈ sentences text start stop,
          StrictlyInside (p + (k + 1) * maxChars) sentence →
            maxChars < sentence.2 - sentence.1 := by
  have hlt : start < stop := by omega
  obtain ⟨hsorted, hbounds⟩ := sentenceBoundaries_of_span hlt.le hstop
    (((text.take start).getLast?.map endsSentence).getD false)
  have hcuts := cut_iff_step hmax hlt.le hsorted hbounds
  have hpieces : ∀ piece : ℕ × ℕ, piece ∈ splitToBudget text maxChars start stop ↔
      piece ∈ splitAtBoundaries maxChars stop start (sentenceEnds text start stop) ∧
        piece.1 < piece.2 := by
    intro piece
    rw [splitToBudget, if_neg (Nat.not_le.mpr hover), List.mem_filter, decide_eq_true_iff]
    rfl
  constructor
  · intro honly p hp k sentence hmem hinside
    by_contra hshort
    obtain ⟨piece, hpiece, hne, hcut⟩ :=
      (hcuts sentence hmem (Nat.not_lt.mp hshort) _ hinside).mpr ⟨p, k, hp, rfl⟩
    exact hshort (honly piece ((hpieces piece).mpr ⟨hpiece, hne⟩) piece.1 (by simp) sentence hmem
      (hcut ▸ hinside))
  · intro hsteps
    -- a piece stops at the end of the span or where the next one starts
    have hstarts : ∀ piece ∈ splitToBudget text maxChars start stop,
        ∀ sentence ∈ sentences text start stop,
          StrictlyInside piece.1 sentence → maxChars < sentence.2 - sentence.1 := by
      intro piece hpiece sentence hmem hinside
      by_contra hshort
      obtain ⟨hpiece, hne⟩ := (hpieces piece).mp hpiece
      obtain ⟨p, k, hp, hcut⟩ :=
        (hcuts sentence hmem (Nat.not_lt.mp hshort) _ hinside).mp ⟨piece, hpiece, hne, rfl⟩
      exact hshort (hsteps p hp k sentence hmem (hcut ▸ hinside))
    intro piece hpiece cut hcut sentence hmem hinside
    rcases List.mem_pair.mp hcut with rfl | rfl
    · exact hstarts piece hpiece sentence hmem hinside
    · obtain heq | ⟨next, hnext, heq⟩ :=
        (splitToBudget_consecutive hmax hlt hstop).stop_eq_or_exists hpiece
      · obtain ⟨hsortedLast, hboundsLast⟩ := append_last hlt.le hsorted hbounds
        have h := (sentencesFrom_bounds hsortedLast hboundsLast hmem).2.2
        have hbefore := hinside.2
        omega
      · exact hstarts next hnext sentence hmem (heq ▸ hinside)

theorem cutsOnlyLongSentences_iff_ten :
    CutsOnlyLongSentences "Yes. No. Oh no!".toList 10 0 15 ↔
      ∀ p, firstLong 10 15 (sentences "Yes. No. Oh no!".toList 0 15) = some p →
        ∀ k, ∀ sentence ∈ sentences "Yes. No. Oh no!".toList 0 15,
          StrictlyInside (p + (k + 1) * 10) sentence → 10 < sentence.2 - sentence.1 :=
  cutsOnlyLongSentences_iff (by decide) (by decide) (by decide)

/-- With a budget of five, the second sentence has five characters and is cut all the same: the
steps from the start of the first one end in it. -/
theorem not_forall_cutsOnlyLongSentences :
    ¬∀ (text : Text) (maxChars start stop : ℕ), 1 ≤ maxChars → stop ≤ text.length →
      maxChars < stop - start → CutsOnlyLongSentences text maxChars start stop := by
  intro h
  have honly := h "Please. Run! Go".toList 5 0 15 (by decide) (by decide) (by decide)
  have hcut := honly (10, 15) (by decide +kernel) 10 (by decide) (8, 13) (by decide +kernel)
    ⟨by decide, by decide⟩
  exact absurd hcut (by decide)

end AudioBook
