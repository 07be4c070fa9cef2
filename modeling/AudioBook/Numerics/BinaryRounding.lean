import Mathlib.Data.Int.Log
import Mathlib.Data.Rat.Floor
import Mathlib.Tactic.Linarith
import Mathlib.Tactic.Positivity
import Mathlib.Tactic.Ring

/-!
# Rounding to a Binary Format

Rational numbers rounded to a binary floating-point format, to the nearest and with ties to even.
The value of an operation is the exact result, rounded. Overflow is left out: the formats have no
largest exponent.

Integers are kept by `roundEven`, so it never passes one (`le_roundEven`, `roundEven_le`); in the
same way `Format.round` never passes a power of two in the range of the format, nor zero
(`Format.round_le_zpow`, `Format.zpow_le_round`, `Format.neg_zpow_le_round`). It keeps the order
(`Format.round_mono`) and the numbers of the format (`Format.round_of_digits`), and every other
number is at most half the distance of its neighbours away (`Format.abs_round_sub_le`).
-/

namespace Numerics

/-! ## Integers -/

/-- The nearest integer, the even one where there are two. -/
def roundEven (x : ℚ) : ℤ :=
  if x - ⌊x⌋ < 1 / 2 then ⌊x⌋
  else if 1 / 2 < x - ⌊x⌋ then ⌊x⌋ + 1
  else if ⌊x⌋ % 2 = 0 then ⌊x⌋ else ⌊x⌋ + 1

variable {x : ℚ} {n : ℤ}

theorem floor_le_roundEven : ⌊x⌋ ≤ roundEven x := by
  unfold roundEven
  split_ifs <;> omega

theorem roundEven_le_floor_add_one : roundEven x ≤ ⌊x⌋ + 1 := by
  unfold roundEven
  split_ifs <;> omega

theorem le_roundEven (h : (n : ℚ) ≤ x) : n ≤ roundEven x :=
  (Int.le_floor.mpr h).trans floor_le_roundEven

theorem roundEven_le (h : x ≤ n) : roundEven x ≤ n := by
  by_cases hlt : ⌊x⌋ < n
  · exact roundEven_le_floor_add_one.trans hlt
  · -- `x` is the integer
    have hfloor : (⌊x⌋ : ℚ) ≤ x := Int.floor_le x
    have hn : (n : ℚ) ≤ ⌊x⌋ := by exact_mod_cast not_lt.mp hlt
    have hx : x - ⌊x⌋ < 1 / 2 := by linarith
    have heq : (⌊x⌋ : ℚ) ≤ n := by linarith
    rw [roundEven, if_pos hx]
    exact_mod_cast heq

@[simp]
theorem roundEven_intCast (n : ℤ) : roundEven (n : ℚ) = n :=
  le_antisymm (roundEven_le le_rfl) (le_roundEven le_rfl)

theorem roundEven_mono {y : ℚ} (h : x ≤ y) : roundEven x ≤ roundEven y := by
  rcases (Int.floor_le_floor h).lt_or_eq with hlt | heq
  · calc roundEven x ≤ ⌊x⌋ + 1 := roundEven_le_floor_add_one
      _ ≤ ⌊y⌋ := hlt
      _ ≤ roundEven y := floor_le_roundEven
  · unfold roundEven
    rw [← heq]
    split_ifs <;> first | omega | (exfalso; linarith)

theorem abs_roundEven_sub_le (x : ℚ) : |(roundEven x : ℚ) - x| ≤ 1 / 2 := by
  have hle := Int.floor_le x
  have hlt := Int.lt_floor_add_one x
  rw [abs_le]
  unfold roundEven
  split_ifs <;> push_cast <;> constructor <;> linarith

/-! ## Formats -/

/-- A binary format: the digits of a significand and the least exponent. -/
structure Format where
  precision : ℕ
  minExponent : ℤ
  precision_pos : 0 < precision

def binary64 : Format where
  precision := 53
  minExponent := -1022
  precision_pos := by decide

def binary32 : Format where
  precision := 24
  minExponent := -126
  precision_pos := by decide

namespace Format

variable {F : Format} {k : ℤ}

def exponent (F : Format) (x : ℚ) : ℤ := max (Int.log 2 x) F.minExponent

/-- The distance between the numbers of the format around a positive number. -/
def ulp (F : Format) (x : ℚ) : ℚ := 2 ^ (F.exponent x - (F.precision - 1))

def roundNonneg (F : Format) (x : ℚ) : ℚ := roundEven (x / F.ulp x) * F.ulp x

def round (F : Format) (x : ℚ) : ℚ :=
  if x < 0 then -F.roundNonneg (-x) else F.roundNonneg x

theorem ulp_pos (F : Format) (x : ℚ) : 0 < F.ulp x :=
  zpow_pos two_pos _

theorem log_two_zpow (k : ℤ) : Int.log 2 ((2 : ℚ) ^ k) = k := by
  have h := Int.log_zpow (R := ℚ) one_lt_two k
  rwa [Nat.cast_two] at h

theorem roundNonneg_nonneg (hx : 0 ≤ x) : 0 ≤ F.roundNonneg x := by
  have hulp := F.ulp_pos x
  have hround : 0 ≤ roundEven (x / F.ulp x) := le_roundEven (by push_cast; positivity)
  have hcast : (0 : ℚ) ≤ roundEven (x / F.ulp x) := by exact_mod_cast hround
  unfold roundNonneg
  positivity

theorem zpow_div_ulp (hk : F.exponent x ≤ k) :
    ∃ n : ℕ, (2 : ℚ) ^ k / F.ulp x = (n : ℤ) ∧ (2 : ℚ) ^ k = (n : ℤ) * F.ulp x := by
  have hprecision := F.precision_pos
  obtain ⟨d, hd⟩ : ∃ d : ℕ, k - (F.exponent x - (F.precision - 1)) = d :=
    Int.eq_ofNat_of_zero_le (by omega)
  have hpow : (2 : ℚ) ^ k = 2 ^ d * F.ulp x := by
    rw [ulp, ← zpow_natCast, ← zpow_add₀ two_ne_zero, ← hd]
    congr 1
    ring
  refine ⟨2 ^ d, ?_, by rw [hpow]; push_cast; rfl⟩
  rw [hpow, mul_div_cancel_right₀ _ (F.ulp_pos x).ne']
  push_cast
  rfl

theorem roundNonneg_zero : F.roundNonneg 0 = 0 := by
  simp [roundNonneg, roundEven]

theorem roundNonneg_le_zpow (hk : F.minExponent ≤ k) (hx : 0 ≤ x) (hle : x ≤ 2 ^ k) :
    F.roundNonneg x ≤ 2 ^ k := by
  rcases hx.eq_or_lt with rfl | hpos
  · rw [roundNonneg_zero]
    exact (zpow_pos two_pos k).le
  · have hexponent : F.exponent x ≤ k := by
      refine max_le ?_ hk
      rw [← log_two_zpow k]
      exact Int.log_mono_right hpos hle
    obtain ⟨n, hdiv, hmul⟩ := zpow_div_ulp hexponent
    have hround : roundEven (x / F.ulp x) ≤ n := by
      apply roundEven_le
      rw [← hdiv]
      exact div_le_div_of_nonneg_right hle (F.ulp_pos x).le
    have hcast : (roundEven (x / F.ulp x) : ℚ) ≤ (n : ℤ) := by exact_mod_cast hround
    rw [roundNonneg, hmul]
    exact mul_le_mul_of_nonneg_right hcast (F.ulp_pos x).le

theorem zpow_le_roundNonneg (hk : F.minExponent ≤ k) (hle : 2 ^ k ≤ x) :
    2 ^ k ≤ F.roundNonneg x := by
  have hpos : 0 < x := (zpow_pos two_pos k).trans_le hle
  have hlog : k ≤ Int.log 2 x := by
    rw [← log_two_zpow k]
    exact Int.log_mono_right (zpow_pos two_pos k) hle
  -- the number is in the range of the format, so its exponent is its logarithm
  have hexponent : F.exponent x = Int.log 2 x := max_eq_left (hk.trans hlog)
  obtain ⟨n, hdiv, hmul⟩ := zpow_div_ulp (F := F) (x := x) hexponent.le
  have hbelow : (2 : ℚ) ^ Int.log 2 x ≤ x := by
    have h := Int.zpow_log_le_self (R := ℚ) one_lt_two hpos
    rwa [Nat.cast_two] at h
  have hround : (n : ℤ) ≤ roundEven (x / F.ulp x) := by
    apply le_roundEven
    rw [← hdiv]
    exact div_le_div_of_nonneg_right hbelow (F.ulp_pos x).le
  have hcast : ((n : ℤ) : ℚ) ≤ roundEven (x / F.ulp x) := by exact_mod_cast hround
  calc (2 : ℚ) ^ k ≤ 2 ^ Int.log 2 x := zpow_le_zpow_right₀ one_le_two hlog
    _ = (n : ℤ) * F.ulp x := hmul
    _ ≤ F.roundNonneg x := mul_le_mul_of_nonneg_right hcast (F.ulp_pos x).le

theorem round_of_nonneg (hx : 0 ≤ x) : F.round x = F.roundNonneg x :=
  if_neg (not_lt.mpr hx)

theorem round_nonneg (hx : 0 ≤ x) : 0 ≤ F.round x := by
  rw [round_of_nonneg hx]
  exact roundNonneg_nonneg hx

theorem round_nonpos (hx : x ≤ 0) : F.round x ≤ 0 := by
  rcases hx.eq_or_lt with rfl | hneg
  · rw [round_of_nonneg (le_refl 0), roundNonneg_zero]
  · rw [round, if_pos hneg, neg_nonpos]
    exact roundNonneg_nonneg (neg_nonneg.mpr hx)

theorem round_le_zpow (hk : F.minExponent ≤ k) (hle : x ≤ 2 ^ k) : F.round x ≤ 2 ^ k := by
  rcases le_total 0 x with hx | hx
  · rw [round_of_nonneg hx]
    exact roundNonneg_le_zpow hk hx hle
  · exact (round_nonpos hx).trans (zpow_pos two_pos k).le

theorem zpow_le_round (hk : F.minExponent ≤ k) (hle : 2 ^ k ≤ x) : 2 ^ k ≤ F.round x := by
  rw [round_of_nonneg ((zpow_pos two_pos k).le.trans hle)]
  exact zpow_le_roundNonneg hk hle

theorem neg_zpow_le_round (hk : F.minExponent ≤ k) (hle : -2 ^ k ≤ x) : -2 ^ k ≤ F.round x := by
  by_cases hneg : x < 0
  · rw [round, if_pos hneg, neg_le_neg_iff]
    exact roundNonneg_le_zpow hk (neg_nonneg.mpr hneg.le) (neg_le.mp hle)
  · exact (neg_nonpos.mpr (zpow_pos two_pos k).le).trans (round_nonneg (not_lt.mp hneg))

/-! ## Nearest Numbers -/

variable {y : ℚ}

theorem exponent_mono (hx : 0 < x) (h : x ≤ y) : F.exponent x ≤ F.exponent y :=
  max_le_max_right _ (Int.log_mono_right hx h)

theorem roundNonneg_mono (hx : 0 ≤ x) (h : x ≤ y) : F.roundNonneg x ≤ F.roundNonneg y := by
  rcases hx.eq_or_lt with rfl | hpos
  · rw [roundNonneg_zero]
    exact roundNonneg_nonneg h
  rcases (exponent_mono (F := F) hpos h).lt_or_eq with hlt | heq
  · -- a power of two stands between them
    have hy : 0 < y := hpos.trans_le h
    have hmin : F.minExponent < F.exponent y := (le_max_right _ _).trans_lt hlt
    have hlog : F.exponent y = Int.log 2 y := by
      unfold exponent at hmin ⊢
      omega
    have hbelow : x ≤ 2 ^ F.exponent y := by
      have hlogx : Int.log 2 x < F.exponent y := (le_max_left _ _).trans_lt hlt
      have hself := Int.lt_zpow_succ_log_self (R := ℚ) one_lt_two x
      rw [Nat.cast_two] at hself
      exact hself.le.trans (zpow_le_zpow_right₀ one_le_two hlogx)
    have habove : 2 ^ F.exponent y ≤ y := by
      have hself := Int.zpow_log_le_self (R := ℚ) one_lt_two hy
      rwa [Nat.cast_two, ← hlog] at hself
    exact (roundNonneg_le_zpow hmin.le hx hbelow).trans (zpow_le_roundNonneg hmin.le habove)
  · have hulp : F.ulp x = F.ulp y := by rw [ulp, ulp, heq]
    have hdiv : x / F.ulp y ≤ y / F.ulp y := div_le_div_of_nonneg_right h (F.ulp_pos y).le
    have hcast : (roundEven (x / F.ulp y) : ℚ) ≤ roundEven (y / F.ulp y) := by
      exact_mod_cast roundEven_mono hdiv
    rw [roundNonneg, roundNonneg, hulp]
    exact mul_le_mul_of_nonneg_right hcast (F.ulp_pos y).le

theorem round_mono (h : x ≤ y) : F.round x ≤ F.round y := by
  rcases lt_or_ge x 0 with hx | hx
  · rcases lt_or_ge y 0 with hy | hy
    · rw [round, if_pos hx, round, if_pos hy, neg_le_neg_iff]
      exact roundNonneg_mono (neg_nonneg.mpr hy.le) (neg_le_neg h)
    · exact (round_nonpos hx.le).trans (round_nonneg hy)
  · rw [round_of_nonneg hx, round_of_nonneg (hx.trans h)]
    exact roundNonneg_mono hx h

theorem abs_roundNonneg_sub_le (F : Format) (x : ℚ) :
    |F.roundNonneg x - x| ≤ F.ulp x / 2 := by
  have hulp := F.ulp_pos x
  have hsub : F.roundNonneg x - x = (roundEven (x / F.ulp x) - x / F.ulp x) * F.ulp x := by
    rw [roundNonneg, sub_mul, div_mul_cancel₀ _ hulp.ne']
  calc |F.roundNonneg x - x|
      = |(roundEven (x / F.ulp x) : ℚ) - x / F.ulp x| * F.ulp x := by
        rw [hsub, abs_mul, abs_of_pos hulp]
    _ ≤ 1 / 2 * F.ulp x := mul_le_mul_of_nonneg_right (abs_roundEven_sub_le _) hulp.le
    _ = F.ulp x / 2 := by ring

theorem abs_round_sub_le (F : Format) (x : ℚ) : |F.round x - x| ≤ F.ulp |x| / 2 := by
  by_cases hx : x < 0
  · have hneg := F.abs_roundNonneg_sub_le (-x)
    rw [round, if_pos hx, abs_of_neg hx, ← abs_neg]
    convert hneg using 2
    ring
  · rw [round_of_nonneg (not_lt.mp hx), abs_of_nonneg (not_lt.mp hx)]
    exact F.abs_roundNonneg_sub_le x

theorem roundNonneg_of_digits {n : ℕ} {e : ℤ} (hn : n < 2 ^ F.precision)
    (he : F.minExponent - (F.precision - 1) ≤ e) :
    F.roundNonneg (n * 2 ^ e) = n * 2 ^ e := by
  rcases Nat.eq_zero_or_pos n with rfl | hpos
  · simp [roundNonneg_zero]
  have hx : (0 : ℚ) < n * 2 ^ e := mul_pos (by exact_mod_cast hpos) (zpow_pos two_pos e)
  have hlog : Int.log 2 ((n : ℚ) * 2 ^ e) ≤ F.precision - 1 + e := by
    have hlt : (n : ℚ) * 2 ^ e < 2 ^ (F.precision + e : ℤ) := by
      rw [zpow_add₀ two_ne_zero, zpow_natCast]
      exact mul_lt_mul_of_pos_right (by exact_mod_cast hn) (zpow_pos two_pos e)
    have hlog := (Int.lt_zpow_iff_log_lt (R := ℚ) one_lt_two hx).mp (by rwa [Nat.cast_two])
    omega
  have hexponent : F.exponent ((n : ℚ) * 2 ^ e) - (F.precision - 1) ≤ e := by
    unfold exponent
    omega
  -- so the number is a multiple of the distance
  obtain ⟨d, hd⟩ := Int.eq_ofNat_of_zero_le (sub_nonneg.mpr hexponent)
  have hpow : (2 : ℚ) ^ e = 2 ^ d * F.ulp (n * 2 ^ e) := by
    rw [ulp, ← zpow_natCast, ← zpow_add₀ two_ne_zero, ← hd]
    congr 1
    ring
  have hdiv : (n : ℚ) * 2 ^ e / F.ulp (n * 2 ^ e) = ((n * 2 ^ d : ℕ) : ℤ) := by
    rw [div_eq_iff (F.ulp_pos _).ne']
    push_cast
    rw [mul_assoc, ← hpow]
  rw [roundNonneg, hdiv, roundEven_intCast, ← hdiv, div_mul_cancel₀ _ (F.ulp_pos _).ne']

theorem round_of_digits {n e : ℤ} (hn : |n| < 2 ^ F.precision)
    (he : F.minExponent - (F.precision - 1) ≤ e) : F.round (n * 2 ^ e) = n * 2 ^ e := by
  have hpow := zpow_pos (two_pos (α := ℚ)) e
  have habs : n.natAbs < 2 ^ F.precision := by
    zify
    exact hn
  have hround := roundNonneg_of_digits habs he
  rw [Nat.cast_natAbs, Int.cast_abs] at hround
  rcases lt_or_ge n 0 with hneg | hnonneg
  · have hcast : (n : ℚ) < 0 := by exact_mod_cast hneg
    rw [abs_of_neg hcast] at hround
    rw [round, if_pos (mul_neg_of_neg_of_pos hcast hpow), ← neg_mul, hround, neg_mul, neg_neg]
  · have hcast : (0 : ℚ) ≤ n := by exact_mod_cast hnonneg
    rw [abs_of_nonneg hcast] at hround
    rw [round_of_nonneg (mul_nonneg hcast hpow.le), hround]

end Format

/-! ## Double Precision -/

/-- A float literal of double precision, and the result of an operation. -/
def fl (value : ℚ) : ℚ := binary64.round value

/-- A number of double precision. -/
def IsDouble (value : ℚ) : Prop := fl value = value

theorem isDouble_of_digits {n e : ℤ} (hn : |n| < 2 ^ 53) (he : -1074 ≤ e) :
    IsDouble (n * 2 ^ e) :=
  Format.round_of_digits hn he

/-! ## Decimals -/

/-- A number rounded to decimal digits: the number of the format that is nearest to the decimal. -/
def Format.roundDecimals (F : Format) (digits : ℕ) (x : ℚ) : ℚ :=
  F.round (roundEven (x * 10 ^ digits) / 10 ^ digits)

section Decimals

variable {F : Format} {digits : ℕ} {b : ℚ}

theorem Format.roundDecimals_le (k n : ℤ) (hk : F.minExponent ≤ k) (hb : (2 : ℚ) ^ k = b)
    (hn : b * 10 ^ digits = n) (hle : x ≤ b) : F.roundDecimals digits x ≤ b := by
  have hpow : (0 : ℚ) < 10 ^ digits := by positivity
  have hround : roundEven (x * 10 ^ digits) ≤ n := by
    apply roundEven_le
    rw [← hn]
    exact mul_le_mul_of_nonneg_right hle hpow.le
  have hcast : (roundEven (x * 10 ^ digits) : ℚ) ≤ n := by exact_mod_cast hround
  rw [← hb]
  apply round_le_zpow hk
  rw [hb, div_le_iff₀ hpow, hn]
  exact hcast

theorem Format.le_roundDecimals (k n : ℤ) (hk : F.minExponent ≤ k) (hb : (2 : ℚ) ^ k = b)
    (hn : b * 10 ^ digits = n) (hle : b ≤ x) : b ≤ F.roundDecimals digits x := by
  have hpow : (0 : ℚ) < 10 ^ digits := by positivity
  have hround : n ≤ roundEven (x * 10 ^ digits) := by
    apply le_roundEven
    rw [← hn]
    exact mul_le_mul_of_nonneg_right hle hpow.le
  have hcast : (n : ℚ) ≤ roundEven (x * 10 ^ digits) := by exact_mod_cast hround
  rw [← hb]
  apply zpow_le_round hk
  rw [hb, le_div_iff₀ hpow, hn]
  exact hcast

theorem Format.neg_le_roundDecimals (k n : ℤ) (hk : F.minExponent ≤ k) (hb : (2 : ℚ) ^ k = b)
    (hn : b * 10 ^ digits = n) (hle : -b ≤ x) : -b ≤ F.roundDecimals digits x := by
  have hpow : (0 : ℚ) < 10 ^ digits := by positivity
  have hround : -n ≤ roundEven (x * 10 ^ digits) := by
    apply le_roundEven
    push_cast
    rw [← hn, ← neg_mul]
    exact mul_le_mul_of_nonneg_right hle hpow.le
  have hcast : -(n : ℚ) ≤ roundEven (x * 10 ^ digits) := by exact_mod_cast hround
  rw [← hb]
  apply neg_zpow_le_round hk
  rw [hb, le_div_iff₀ hpow, neg_mul, hn]
  exact hcast

theorem Format.roundDecimals_nonneg (hx : 0 ≤ x) : 0 ≤ F.roundDecimals digits x := by
  have hround : (0 : ℤ) ≤ roundEven (x * 10 ^ digits) := le_roundEven (by push_cast; positivity)
  have hcast : (0 : ℚ) ≤ roundEven (x * 10 ^ digits) := by exact_mod_cast hround
  apply round_nonneg
  positivity

end Decimals

end Numerics
