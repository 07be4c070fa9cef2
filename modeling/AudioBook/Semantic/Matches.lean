import AudioBook.Semantic.Patterns

/-!
# Where Patterns Match

The matches of a pattern with their offsets: `search` takes the group of the first of them
(`searchGroup_eq_map`). A match lies in the text that is scanned, and a
class that is repeated takes all the characters it can (`head?_matchesFrom_star_chars`).
-/

namespace AudioBook

structure LocatedMatch where
  start : ℕ
  stop : ℕ
  captured : Text
  deriving DecidableEq

namespace Pattern

/-- The matches of `finditer` with their offsets; the scan stands at `pos`. -/
def findMatches (p : Pattern) (before : Option Char) (pos skip : ℕ) : Text → List LocatedMatch
  | [] => []
  | x :: text =>
      match skip with
      | skip + 1 => findMatches p (some x) (pos + 1) skip text
      | 0 =>
          match p.matchAt ⟨before, x :: text⟩ with
          | some m =>
              ⟨pos, pos + 1 + text.length - m.cursor.rest.length, m.captured⟩ ::
                findMatches p (some x) (pos + 1) (text.length - m.cursor.rest.length) text
          | none => findMatches p (some x) (pos + 1) 0 text

/-- The match of `search` with its offsets; the scan stands at `pos`. -/
def searchMatch (p : Pattern) (before : Option Char) (pos : ℕ) : Text → Option LocatedMatch
  | [] => (p.matchAt ⟨before, []⟩).map fun m => ⟨pos, pos, m.captured⟩
  | x :: text =>
      match p.matchAt ⟨before, x :: text⟩ with
      | some m => some ⟨pos, pos + 1 + text.length - m.cursor.rest.length, m.captured⟩
      | none => searchMatch p (some x) (pos + 1) text

/-! ## The Same Matches -/

variable {p : Pattern}

theorem searchGroup_eq_map (before : Option Char) (pos : ℕ) (text : Text) :
    p.searchGroup before text = (p.searchMatch before pos text).map LocatedMatch.captured := by
  induction text generalizing before pos with
  | nil => simp [searchGroup, searchMatch, Function.comp_def]
  | cons x text ih =>
      rw [searchGroup, searchMatch]
      cases p.matchAt ⟨before, x :: text⟩ with
      | none => exact ih (some x) (pos + 1)
      | some m => rfl

/-! ## The Bounds of a Match -/

/-- The least number of characters that a pattern takes. -/
def minLength : Pattern → ℕ
  | chars _ => 1
  | boundary _ => 0
  | seq p q => p.minLength + q.minLength
  | alt p q => min p.minLength q.minLength
  | upTo _ _ => 0
  | star _ => 0
  | group p => p.minLength

theorem rest_length_of_mem_repeatMatch {step : PatternMatch → List PatternMatch} {n : ℕ}
    {m m' : PatternMatch} (hmem : m' ∈ repeatMatch step n m) :
    m'.cursor.rest.length ≤ m.cursor.rest.length := by
  induction n generalizing m with
  | zero =>
      rw [repeatMatch, List.mem_singleton] at hmem
      exact hmem ▸ Nat.le_refl _
  | succ n ih =>
      rw [repeatMatch, List.mem_append, List.mem_flatMap, List.mem_singleton] at hmem
      obtain ⟨next, hnext, hmem⟩ | rfl := hmem
      · -- the filter lets through only what consumes
        have hlt := of_decide_eq_true (List.mem_filter.mp hnext).2
        have hle := ih hmem
        omega
      · exact Nat.le_refl _

theorem minLength_le_of_mem_matchesFrom {m m' : PatternMatch} (hmem : m' ∈ p.matchesFrom m) :
    m'.cursor.rest.length + p.minLength ≤ m.cursor.rest.length := by
  induction p generalizing m m' with
  | chars q =>
      obtain ⟨⟨before, rest⟩, captured⟩ := m
      cases rest with
      | nil => simp [matchesFrom, Cursor.next] at hmem
      | cons x rest =>
          by_cases hx : q x
          · simp [matchesFrom, Cursor.next, hx] at hmem
            simp [hmem, minLength]
          · simp [matchesFrom, Cursor.next, hx] at hmem
  | boundary isWord =>
      rw [matchesFrom] at hmem
      split at hmem
      · rw [List.mem_singleton.mp hmem]
        simp [minLength]
      · simp at hmem
  | seq p q ihp ihq =>
      obtain ⟨mid, hmid, hmem⟩ := List.mem_flatMap.mp hmem
      have h₁ := ihp hmid
      have h₂ := ihq hmem
      simp only [minLength]
      omega
  | alt p q ihp ihq =>
      simp only [minLength]
      rcases List.mem_append.mp hmem with hmem | hmem
      · have h := ihp hmem
        omega
      · have h := ihq hmem
        omega
  | upTo n p ih => exact rest_length_of_mem_repeatMatch hmem
  | star p ih => exact rest_length_of_mem_repeatMatch hmem
  | group p ih =>
      obtain ⟨mid, hmid, rfl⟩ := List.mem_map.mp hmem
      exact @ih m mid hmid

theorem minLength_le_of_matchAt {cursor : Cursor} {m : PatternMatch}
    (hmatch : p.matchAt cursor = some m) :
    m.cursor.rest.length + p.minLength ≤ cursor.rest.length :=
  minLength_le_of_mem_matchesFrom (m := { cursor }) (List.mem_of_head? hmatch)

theorem searchMatch_bounds {before : Option Char} {pos : ℕ} {text : Text} {found : LocatedMatch}
    (hfound : p.searchMatch before pos text = some found) :
    pos ≤ found.start ∧ found.start + p.minLength ≤ found.stop ∧
      found.stop ≤ pos + text.length := by
  induction text generalizing before pos with
  | nil =>
      rw [searchMatch, Option.map_eq_some_iff] at hfound
      obtain ⟨m, hmatch, rfl⟩ := hfound
      have h := minLength_le_of_matchAt hmatch
      simp only [List.length_nil] at h ⊢
      omega
  | cons x text ih =>
      rw [searchMatch] at hfound
      cases hmatch : p.matchAt ⟨before, x :: text⟩ with
      | none =>
          rw [hmatch] at hfound
          have h := ih hfound
          simp only [List.length_cons]
          omega
      | some m =>
          rw [hmatch] at hfound
          have h := minLength_le_of_matchAt hmatch
          obtain rfl := Option.some.inj hfound
          simp only [List.length_cons] at h ⊢
          omega

/-! ## Classes -/

variable (q : Char → Bool)

@[simp]
theorem matchesFrom_chars_nil (before : Option Char) (captured : Text) :
    (chars q).matchesFrom ⟨⟨before, []⟩, captured⟩ = [] := rfl

@[simp]
theorem matchesFrom_chars_cons (before : Option Char) (x : Char) (rest : Text) (captured : Text) :
    (chars q).matchesFrom ⟨⟨before, x :: rest⟩, captured⟩
      = if q x then [⟨⟨some x, rest⟩, captured⟩] else [] := rfl

theorem head?_matchesFrom_star_chars (m : PatternMatch) :
    ∃ m', ((star (chars q)).matchesFrom m).head? = some m' ∧
      m'.cursor.rest = m.cursor.rest.dropWhile q ∧ m'.captured = m.captured := by
  -- the bound on the number of repetitions is never reached
  suffices h : ∀ n, m.cursor.rest.length ≤ n →
      ∃ m', (repeatMatch (chars q).matchesFrom n m).head? = some m' ∧
        m'.cursor.rest = m.cursor.rest.dropWhile q ∧ m'.captured = m.captured from
    h m.cursor.rest.length (Nat.le_refl _)
  intro n hn
  induction n generalizing m with
  | zero =>
      have hnil : m.cursor.rest = [] := List.length_eq_zero_iff.mp (Nat.le_zero.mp hn)
      exact ⟨m, rfl, by rw [hnil]; rfl, rfl⟩
  | succ n ih =>
      obtain ⟨⟨before, rest⟩, captured⟩ := m
      cases rest with
      | nil => exact ⟨⟨⟨before, []⟩, captured⟩, by simp [repeatMatch],
          rfl, rfl⟩
      | cons x rest =>
          by_cases hx : q x
          · obtain ⟨m', hhead, hrest, hcaptured⟩ := ih ⟨⟨some x, rest⟩, captured⟩ (by
              simpa using hn)
            refine ⟨m', ?_, ?_, hcaptured⟩
            · simp [repeatMatch, hx, hhead]
            · simpa [List.dropWhile_cons, hx] using hrest
          · exact ⟨⟨⟨before, x :: rest⟩, captured⟩,
              by simp [repeatMatch, hx],
              by simp [hx], rfl⟩

theorem head?_matchesFrom_upTo_chars (m : PatternMatch) :
    ∃ m', ((upTo 1 (chars q)).matchesFrom m).head? = some m' ∧
      m'.cursor.rest = (if m.cursor.rest.head?.any q then m.cursor.rest.tail
        else m.cursor.rest) ∧ m'.captured = m.captured := by
  obtain ⟨⟨before, rest⟩, captured⟩ := m
  cases rest with
  | nil => exact ⟨⟨⟨before, []⟩, captured⟩,
      by simp [matchesFrom, repeatMatch, Cursor.next], rfl, rfl⟩
  | cons x rest =>
      by_cases hx : q x
      · exact ⟨⟨⟨some x, rest⟩, captured⟩,
          by simp [matchesFrom, repeatMatch, Cursor.next, hx], by simp [hx], rfl⟩
      · exact ⟨⟨⟨before, x :: rest⟩, captured⟩,
          by simp [matchesFrom, repeatMatch, Cursor.next, hx], by simp [hx], rfl⟩

theorem head?_matchesFrom_seq {q : Pattern} {m m' : PatternMatch} (mid : PatternMatch)
    (hp : (p.matchesFrom m).head? = some mid) (hq : (q.matchesFrom mid).head? = some m') :
    ((seq p q).matchesFrom m).head? = some m' := by
  obtain ⟨mids, hmids⟩ := List.head?_eq_some_iff.mp hp
  rw [matchesFrom, hmids, List.flatMap_cons, List.head?_append, hq]
  rfl

end Pattern

end AudioBook
