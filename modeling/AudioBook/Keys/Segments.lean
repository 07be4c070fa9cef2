import Mathlib.Data.Int.Notation
import Mathlib.Tactic.Common

/-!
# Separated Keys

Keys made by joining segments with a separator that no segment contains. A segment carries that
fact, so a joined key determines its segments. Integers are rendered in decimal, which gives a
segment for every separator that is neither a digit nor the minus sign.

Main results:

- `Segment.join_inj`: two joined keys are equal exactly when their segments are.
- `Segment.ofInt_inj`: the decimal segments of two integers are equal exactly when the integers
  are.
-/

namespace Keys

/-- A text that does not contain the separator `sep`. -/
structure Segment (sep : Char) where
  text : List Char
  not_mem : sep ∉ text
  deriving DecidableEq

def decimal : ℤ → List Char
  | .ofNat n => Nat.toDigits 10 n
  | .negSucc n => '-' :: Nat.toDigits 10 (n + 1)

theorem isDigit_or_minus_of_mem_decimal {i : ℤ} {c : Char} (h : c ∈ decimal i) :
    c.isDigit ∨ c = '-' := by
  cases i with
  | ofNat n => exact .inl (Nat.isDigit_of_mem_toDigits (by decide) (by decide) h)
  | negSucc n =>
    rcases List.mem_cons.mp h with rfl | h
    · exact .inr rfl
    · exact .inl (Nat.isDigit_of_mem_toDigits (by decide) (by decide) h)

theorem decimal_ne_nil (i : ℤ) : decimal i ≠ [] := by
  cases i with
  | ofNat n => exact Nat.toDigits_ne_nil
  | negSucc n => exact List.cons_ne_nil _ _

theorem toDigits_inj {m n : ℕ} (h : Nat.toDigits 10 m = Nat.toDigits 10 n) : m = n := by
  have hparsed := congrArg (fun digits => Nat.ofDigitChars 10 digits 0) h
  simpa using hparsed

theorem toDigits_ne_minus_cons (n : ℕ) (cs : List Char) : Nat.toDigits 10 n ≠ '-' :: cs := by
  intro h
  have hmem : '-' ∈ Nat.toDigits 10 n := h ▸ List.mem_cons_self
  have hdigit : '-'.isDigit := Nat.isDigit_of_mem_toDigits (by decide) (by decide) hmem
  exact absurd hdigit (by decide)

theorem decimal_injective : Function.Injective decimal := by
  intro i j h
  cases i with
  | ofNat m =>
    cases j with
    | ofNat n => exact congrArg Int.ofNat (toDigits_inj h)
    | negSucc n => exact absurd h (toDigits_ne_minus_cons m _)
  | negSucc m =>
    cases j with
    | ofNat n => exact absurd h.symm (toDigits_ne_minus_cons n _)
    | negSucc n =>
      have hdigits : Nat.toDigits 10 (m + 1) = Nat.toDigits 10 (n + 1) := List.tail_eq_of_cons_eq h
      rw [Nat.succ.inj (toDigits_inj hdigits)]

namespace Segment

variable {sep : Char}

@[ext]
theorem ext {a b : Segment sep} (h : a.text = b.text) : a = b := by
  cases a
  cases b
  simpa using h

def join (segments : List (Segment sep)) : List Char :=
  [sep].intercalate (segments.map text)

@[simp]
theorem join_singleton (a : Segment sep) : join [a] = a.text := List.intercalate_singleton

theorem join_cons_cons (a b : Segment sep) (segments : List (Segment sep)) :
    join (a :: b :: segments) = a.text ++ [sep] ++ join (b :: segments) :=
  List.intercalate_cons_cons

theorem length_le_length_join (a : Segment sep) (segments : List (Segment sep)) :
    a.text.length ≤ (join (a :: segments)).length := by
  cases segments with
  | nil => simp
  | cons b segments => simp [join_cons_cons]

theorem join_inj {as bs : List (Segment sep)} (ha : as ≠ []) (hb : bs ≠ []) :
    join as = join bs ↔ as = bs := by
  refine ⟨fun h => ?_, congrArg join⟩
  have hsplit : ∀ {cs : List (Segment sep)}, cs ≠ [] → (join cs).splitOn sep = cs.map text := by
    intro cs hcs
    refine List.splitOn_intercalate sep (fun l hl => ?_) (by simpa using hcs)
    obtain ⟨c, -, rfl⟩ := List.mem_map.mp hl
    exact c.not_mem
  have htexts : as.map text = bs.map text := by
    rw [← hsplit ha, ← hsplit hb, h]
  exact List.map_inj_right (fun _ _ => ext) |>.mp htexts

def empty : Segment sep := ⟨[], by simp⟩

def ofInt (hsep : ¬ (sep.isDigit ∨ sep = '-')) (i : ℤ) : Segment sep where
  text := decimal i
  not_mem h := hsep (isDigit_or_minus_of_mem_decimal h)

/-- An integer in decimal, or nothing. -/
def ofInt? (hsep : ¬ (sep.isDigit ∨ sep = '-')) : Option ℤ → Segment sep
  | some i => ofInt hsep i
  | none => empty

variable {hsep : ¬ (sep.isDigit ∨ sep = '-')}

@[simp]
theorem ofInt_inj {i j : ℤ} : ofInt hsep i = ofInt hsep j ↔ i = j :=
  ⟨fun h => decimal_injective (congrArg text h), congrArg _⟩

@[simp]
theorem ofInt?_inj {i j : Option ℤ} : ofInt? hsep i = ofInt? hsep j ↔ i = j := by
  refine ⟨fun h => ?_, congrArg _⟩
  match i, j with
  | none, none => rfl
  | some i, some j => exact congrArg some (decimal_injective (congrArg text h))
  | some i, none => exact absurd (congrArg text h) (decimal_ne_nil i)
  | none, some j => exact absurd (congrArg text h).symm (decimal_ne_nil j)

end Segment

end Keys
