import Mathlib.Tactic.Ring
import Mathlib.Tactic.Common
import Mathlib.Algebra.Order.Ring.Nat
import Mathlib.Data.Int.ModEq
import Mathlib.Tactic.LinearCombination

/-!
# Numbers as Bytes

A number in big-endian order, its highest byte first, and how it is read from a buffer, which fails
where the number does not stand in the buffer as a whole; and the lowest bytes of an integer in two's
complement, the lowest byte first.

Main results:

- `ofBigEndian_bigEndian`: a number that fits its width is read back.
- `readUIntBE_of_drop`: a read depends on the bytes that stand there.
- `signedValue_signedBytes`: a number in the range of its width is read back.
- `take_signedBytes`: the low bytes of a number do not depend on how many are written.
-/

namespace Numerics

/-! ## Big-Endian Numbers -/

def bigEndian : ℕ → ℕ → List UInt8
  | 0, _ => []
  | width + 1, n => bigEndian width (n / 256) ++ [UInt8.ofNat n]

def ofBigEndian (bytes : List UInt8) : ℕ :=
  bytes.foldl (fun n byte => 256 * n + byte.toNat) 0

@[simp] theorem length_bigEndian (width n : ℕ) : (bigEndian width n).length = width := by
  induction width generalizing n with
  | zero => rfl
  | succ width ih => simp [bigEndian, ih]

theorem ofBigEndian_concat (bytes : List UInt8) (byte : UInt8) :
    ofBigEndian (bytes ++ [byte]) = 256 * ofBigEndian bytes + byte.toNat := by
  rw [ofBigEndian, List.foldl_append]
  rfl

theorem ofBigEndian_bigEndian {width n : ℕ} (h : n < 256 ^ width) :
    ofBigEndian (bigEndian width n) = n := by
  induction width generalizing n with
  | zero =>
    rw [pow_zero, Nat.lt_one_iff] at h
    rw [h]
    rfl
  | succ width ih =>
    have hhigh : n / 256 < 256 ^ width :=
      Nat.div_lt_of_lt_mul (by rwa [pow_succ'] at h)
    have hlow : (UInt8.ofNat n).toNat = n % 256 := UInt8.toNat_ofNat'
    rw [bigEndian, ofBigEndian_concat, ih hhigh, hlow]
    omega

/-- Read a number; `none` if it does not stand in the buffer as a whole. -/
def readUIntBE (width : ℕ) (buffer : List UInt8) (offset : ℕ) : Option ℕ :=
  if offset + width ≤ buffer.length then some (ofBigEndian ((buffer.drop offset).take width))
  else none

theorem readUIntBE_of_drop {width offset : ℕ} {buffer bytes rest : List UInt8} (hwidth : 0 < width)
    (hlength : bytes.length = width) (h : buffer.drop offset = bytes ++ rest) :
    readUIntBE width buffer offset = some (ofBigEndian bytes) := by
  have hdrop := congrArg List.length h
  rw [List.length_drop, List.length_append] at hdrop
  rw [readUIntBE, if_pos (by omega), h, List.take_left' hlength]

theorem exists_readUIntBE {width offset : ℕ} {buffer : List UInt8}
    (h : offset + width ≤ buffer.length) : ∃ n, readUIntBE width buffer offset = some n :=
  ⟨_, if_pos h⟩

/-! ## Two's Complement -/

def signedBytes : ℕ → ℤ → List UInt8
  | 0, _ => []
  | width + 1, n => UInt8.ofNat (n % 256).toNat :: signedBytes width (n / 256)

/-- The number that bytes stand for without a sign. -/
def unsignedValue : List UInt8 → ℤ
  | [] => 0
  | byte :: bytes => byte.toNat + 256 * unsignedValue bytes

def signedValue (bytes : List UInt8) : ℤ :=
  if 2 * unsignedValue bytes < 256 ^ bytes.length then unsignedValue bytes
  else unsignedValue bytes - 256 ^ bytes.length

@[simp] theorem length_signedBytes (width : ℕ) (n : ℤ) : (signedBytes width n).length = width := by
  induction width generalizing n with
  | zero => rfl
  | succ width ih => rw [signedBytes, List.length_cons, ih]

theorem take_signedBytes (width more : ℕ) (n : ℤ) :
    (signedBytes (width + more) n).take width = signedBytes width n := by
  induction width generalizing n with
  | zero => rfl
  | succ width ih => rw [Nat.succ_add, signedBytes, List.take_succ_cons, ih, signedBytes]

theorem unsignedValue_signedBytes (width : ℕ) (n : ℤ) :
    unsignedValue (signedBytes width n) = n % 256 ^ width := by
  induction width generalizing n with
  | zero => simp [signedBytes, unsignedValue]
  | succ width ih =>
    have hbyte : ((UInt8.ofNat (n % 256).toNat).toNat : ℤ) = n % 256 := by
      rw [UInt8.toNat_ofNat']
      omega
    have hpow : (0 : ℤ) < 256 ^ width := pow_pos (by decide) _
    have hlow := Int.emod_nonneg (n / 256) hpow.ne'
    have hhigh := Int.emod_lt_of_pos (n / 256) hpow
    have hsplit : n = n % 256 + 256 * (n / 256 % 256 ^ width) +
        256 * 256 ^ width * (n / 256 / 256 ^ width) := by
      have hquotient := Int.emod_add_mul_ediv (n / 256) (256 ^ width)
      have hremainder := Int.emod_add_mul_ediv n 256
      linear_combination -hremainder - 256 * hquotient
    rw [signedBytes, unsignedValue, hbyte, ih, pow_succ']
    generalize n / 256 % 256 ^ width = low at *
    generalize n / 256 / 256 ^ width = high at *
    have hmod : (n % 256 + 256 * low) % (256 * 256 ^ width) = n % 256 + 256 * low :=
      Int.emod_eq_of_lt (by omega) (by omega)
    rw [← hmod]
    conv_rhs => rw [hsplit, Int.add_mul_emod_self_left]

theorem signedValue_signedBytes {width : ℕ} {n : ℤ} (hlow : -256 ^ width ≤ 2 * n)
    (hhigh : 2 * n < 256 ^ width) : signedValue (signedBytes width n) = n := by
  rw [signedValue, unsignedValue_signedBytes, length_signedBytes]
  rcases le_or_gt 0 n with hn | hn
  · rw [Int.emod_eq_of_lt hn (by omega), if_pos hhigh]
  · have hmod : n % 256 ^ width = n + 256 ^ width := by
      rw [← Int.add_mul_emod_self_left n (256 ^ width) 1, mul_one]
      exact Int.emod_eq_of_lt (by omega) (by omega)
    rw [hmod, if_neg (by omega), add_sub_cancel_right]

end Numerics
