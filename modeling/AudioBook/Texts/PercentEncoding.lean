import Mathlib.Data.Nat.Notation
import Mathlib.Tactic.Common

/-!
# Percent-Encoding

An escape is `%` with two hexadecimal digits. A text is decoded as a whole, as UTF-8, or only as far
as escapes stand for unreserved characters, which mean the same with and without an escape.

Main results:

- `decodeUnreserved_escape`: an escaped character is read back.
- `decodeUnreserved_eq_self`: a text without escapes is what it says.
- `decodeURIComponent_encode`: an encoded text is read back.
-/

namespace PercentEncoding

def hexDigit (c : Char) : Option ℕ :=
  if '0' ≤ c ∧ c ≤ '9' then some (c.toNat - '0'.toNat)
  else if 'a' ≤ c ∧ c ≤ 'f' then some (c.toNat - 'a'.toNat + 10)
  else if 'A' ≤ c ∧ c ≤ 'F' then some (c.toNat - 'A'.toNat + 10)
  else none

/-! ## All Escapes -/

def octets : List Char → Option (List (Char ⊕ ℕ))
  | [] => some []
  | '%' :: high :: low :: text => do
      let high ← hexDigit high
      let low ← hexDigit low
      return .inr (16 * high + low) :: (← octets text)
  | c :: text => if c = '%' then none else return .inl c :: (← octets text)

/-- Read octets as UTF-8. `needed` more octets belong to the character at hand, `value` is what the
ones before say, and `least` is the smallest value that takes so many octets. -/
def decodeOctets : ℕ → ℕ → ℕ → List (Char ⊕ ℕ) → Option (List Char)
  | 0, _, _, [] => some []
  | 0, _, _, .inl c :: rest => (decodeOctets 0 0 0 rest).map (c :: ·)
  | 0, _, _, .inr octet :: rest =>
      if octet < 0x80 then (decodeOctets 0 0 0 rest).map (Char.ofNat octet :: ·)
      else if octet < 0xc0 then none
      else if octet < 0xe0 then decodeOctets 1 (octet - 0xc0) 0x80 rest
      else if octet < 0xf0 then decodeOctets 2 (octet - 0xe0) 0x800 rest
      else if octet < 0xf8 then decodeOctets 3 (octet - 0xf0) 0x10000 rest
      else none
  | needed + 1, value, least, .inr octet :: rest =>
      let value := 64 * value + (octet - 0x80)
      if octet < 0x80 ∨ 0xc0 ≤ octet then none
      else if 0 < needed then decodeOctets needed value least rest
      else if least ≤ value ∧ value.isValidChar then
        (decodeOctets 0 0 0 rest).map (Char.ofNat value :: ·)
      else none
  | _ + 1, _, _, _ => none

/-- Decode all escapes; `none` if an escape is not complete or the octets are no UTF-8. -/
def decodeURIComponent (text : List Char) : Option (List Char) := do
  decodeOctets 0 0 0 (← octets text)

/-! ## Unreserved Characters -/

/-- The characters that mean the same with and without an escape. -/
def isUnreserved (c : Char) : Bool := c.isAlphanum || decide (c ∈ ['-', '.', '_', '~'])

def decodeUnreserved : List Char → List Char
  | '%' :: high :: low :: text =>
      match hexDigit high, hexDigit low with
      | some h, some l =>
          if isUnreserved (Char.ofNat (16 * h + l)) then
            Char.ofNat (16 * h + l) :: decodeUnreserved text
          else '%' :: decodeUnreserved (high :: low :: text)
      | _, _ => '%' :: decodeUnreserved (high :: low :: text)
  | c :: text => c :: decodeUnreserved text
  | [] => []

/-- The hexadecimal digit of a number below 16. -/
def hexChar (n : ℕ) : Char :=
  if n < 10 then Char.ofNat ('0'.toNat + n) else Char.ofNat ('A'.toNat + n - 10)

def escape (c : Char) : List Char := ['%', hexChar (c.toNat / 16), hexChar (c.toNat % 16)]

theorem hexDigit_hexChar {n : ℕ} (h : n < 16) : hexDigit (hexChar n) = some n := by
  have hall : ∀ n < 16, hexDigit (hexChar n) = some n := by decide
  exact hall n h

theorem toNat_of_isAlphanum {c : Char} (h : c.isAlphanum = true) :
    (65 ≤ c.toNat ∧ c.toNat ≤ 90 ∨ 97 ≤ c.toNat ∧ c.toNat ≤ 122) ∨
      48 ≤ c.toNat ∧ c.toNat ≤ 57 := by
  change ((decide (65 ≤ c.val ∧ c.val ≤ 90) ||
    (decide (97 ≤ c.val) && decide (c.val ≤ 122))) ||
      (decide (48 ≤ c.val) && decide (c.val ≤ 57))) = true at h
  simp only [Bool.or_eq_true, Bool.and_eq_true, decide_eq_true_eq, UInt32.le_iff_toNat_le] at h
  exact h

theorem toNat_lt_of_isUnreserved {c : Char} (h : isUnreserved c = true) : c.toNat < 256 := by
  rw [isUnreserved, Bool.or_eq_true] at h
  rcases h with h | h
  · have hrange := toNat_of_isAlphanum h
    omega
  · have hmark : c ∈ ['-', '.', '_', '~'] := of_decide_eq_true h
    simp only [List.mem_cons, List.not_mem_nil, or_false] at hmark
    rcases hmark with rfl | rfl | rfl | rfl <;> decide

theorem decodeUnreserved_escape {c : Char} (h : isUnreserved c = true) (text : List Char) :
    decodeUnreserved (escape c ++ text) = c :: decodeUnreserved text := by
  have hlt := toNat_lt_of_isUnreserved h
  have hvalue : Char.ofNat (16 * (c.toNat / 16) + c.toNat % 16) = c := by
    rw [Nat.div_add_mod, Char.ofNat_toNat]
  rw [escape, List.cons_append, List.cons_append, List.cons_append, List.nil_append,
    decodeUnreserved, hexDigit_hexChar (by omega), hexDigit_hexChar (by omega)]
  simp [hvalue, h]

theorem decodeUnreserved_eq_self {text : List Char} (h : '%' ∉ text) :
    decodeUnreserved text = text := by
  fun_induction decodeUnreserved text with
  | case1 | case2 | case3 => simp at h
  | case4 c text hc ih =>
    rw [ih fun hmem => h (List.mem_cons_of_mem _ hmem)]
  | case5 => rfl

/-! ## Components -/

/-- The octets of a character in UTF-8. -/
def utf8 (c : Char) : List ℕ :=
  let n := c.toNat
  if n < 0x80 then [n]
  else if n < 0x800 then [0xc0 + n / 64, 0x80 + n % 64]
  else if n < 0x10000 then [0xe0 + n / 4096, 0x80 + n / 64 % 64, 0x80 + n % 64]
  else [0xf0 + n / 262144, 0x80 + n / 4096 % 64, 0x80 + n / 64 % 64, 0x80 + n % 64]

def escapeOctet (octet : ℕ) : List Char := ['%', hexChar (octet / 16), hexChar (octet % 16)]

/-- The characters that `encodeURIComponent` leaves as they are. -/
def isPlain (c : Char) : Bool :=
  c.isAlphanum || decide (c ∈ ['-', '_', '.', '!', '~', '*', '\'', '(', ')'])

def encodeChar (c : Char) : List Char :=
  if isPlain c = true then [c] else (utf8 c).flatMap escapeOctet

/-- `encodeURIComponent` of a text without lone surrogates. -/
def encodeURIComponent (text : List Char) : List Char := text.flatMap encodeChar

/-- What `octets` makes of an encoded character. -/
def marks (c : Char) : List (Char ⊕ ℕ) :=
  if isPlain c = true then [.inl c] else (utf8 c).map .inr

theorem toNat_lt (c : Char) : c.toNat < 0x110000 := by
  rcases c.valid with h | h
  · exact Nat.lt_trans h (by decide)
  · exact h.2

theorem octet_lt {c : Char} {octet : ℕ} (h : octet ∈ utf8 c) : octet < 256 := by
  have hc := toNat_lt c
  simp only [utf8] at h
  split_ifs at h <;> simp only [List.mem_cons, List.not_mem_nil, or_false] at h <;> omega

theorem octets_escapeOctet {octet : ℕ} (h : octet < 256) (text : List Char) :
    octets (escapeOctet octet ++ text) = (octets text).map (.inr octet :: ·) := by
  rw [escapeOctet, List.cons_append, List.cons_append, List.cons_append, List.nil_append, octets,
    hexDigit_hexChar (by omega), hexDigit_hexChar (by omega)]
  simp only [Option.bind_eq_bind, Option.bind_some, Nat.div_add_mod]
  cases octets text <;> rfl

theorem octets_escapes {values : List ℕ} (h : ∀ octet ∈ values, octet < 256) (text : List Char) :
    octets (values.flatMap escapeOctet ++ text) = (octets text).map (values.map .inr ++ ·) := by
  induction values with
  | nil => simp
  | cons octet values ih =>
    obtain ⟨hoctet, hvalues⟩ := List.forall_mem_cons.mp h
    rw [List.flatMap_cons, List.append_assoc, octets_escapeOctet hoctet, ih hvalues,
      Option.map_map]
    rfl

theorem octets_encodeChar (c : Char) (text : List Char) :
    octets (encodeChar c ++ text) = (octets text).map (marks c ++ ·) := by
  unfold encodeChar marks
  split
  case isFalse => exact octets_escapes (fun octet hmem => octet_lt hmem) text
  case isTrue h =>
    have hpercent : c ≠ '%' := by
      rintro rfl
      exact absurd h (by decide)
    rw [List.cons_append, List.nil_append, octets.eq_def]
    split
    case h_1 heq => cases heq
    case h_2 heq => exact absurd (List.cons_eq_cons.mp heq).1 hpercent
    case h_3 heq =>
      obtain ⟨rfl, rfl⟩ := List.cons_eq_cons.mp heq
      rw [if_neg hpercent]
      cases octets text <;> rfl

theorem decodeOctets_utf8 (c : Char) (rest : List (Char ⊕ ℕ)) :
    decodeOctets 0 0 0 ((utf8 c).map .inr ++ rest) = (decodeOctets 0 0 0 rest).map (c :: ·) := by
  have hc := toNat_lt c
  have hvalid : c.toNat.isValidChar := c.valid
  have hchar : Char.ofNat c.toNat = c := Char.ofNat_toNat c
  unfold utf8
  dsimp only
  -- the first octet says how many follow, and each of these adds six bits
  split_ifs with h1 h2 h3
  · simp [decodeOctets, h1, hchar]
  · have hvalue : 64 * (0xc0 + c.toNat / 64 - 0xc0) + (0x80 + c.toNat % 64 - 0x80) = c.toNat := by
      omega
    simp only [List.map_cons, List.map_nil, List.cons_append, List.nil_append, decodeOctets]
    rw [if_neg (by omega), if_neg (by omega), if_pos (by omega), if_neg (by omega),
      if_neg (by omega), hvalue, if_pos ⟨by omega, hvalid⟩, hchar]
  · have hvalue : 64 * (64 * (0xe0 + c.toNat / 4096 - 0xe0) + (0x80 + c.toNat / 64 % 64 - 0x80)) +
        (0x80 + c.toNat % 64 - 0x80) = c.toNat := by omega
    simp only [List.map_cons, List.map_nil, List.cons_append, List.nil_append, decodeOctets]
    rw [if_neg (by omega), if_neg (by omega), if_neg (by omega), if_pos (by omega),
      if_neg (by omega), if_pos (by omega), if_neg (by omega), if_neg (by omega), hvalue,
      if_pos ⟨by omega, hvalid⟩, hchar]
  · have hvalue : 64 * (64 * (64 * (0xf0 + c.toNat / 262144 - 0xf0) +
        (0x80 + c.toNat / 4096 % 64 - 0x80)) + (0x80 + c.toNat / 64 % 64 - 0x80)) +
          (0x80 + c.toNat % 64 - 0x80) = c.toNat := by omega
    simp only [List.map_cons, List.map_nil, List.cons_append, List.nil_append, decodeOctets]
    rw [if_neg (by omega), if_neg (by omega), if_neg (by omega), if_neg (by omega),
      if_pos (by omega), if_neg (by omega), if_pos (by omega), if_neg (by omega),
      if_pos (by omega), if_neg (by omega), if_neg (by omega), hvalue,
      if_pos ⟨by omega, hvalid⟩, hchar]

theorem decodeOctets_marks (c : Char) (rest : List (Char ⊕ ℕ)) :
    decodeOctets 0 0 0 (marks c ++ rest) = (decodeOctets 0 0 0 rest).map (c :: ·) := by
  unfold marks
  split
  · rfl
  · exact decodeOctets_utf8 c rest

theorem decodeURIComponent_encode (text : List Char) :
    decodeURIComponent (encodeURIComponent text) = some text := by
  have hoctets : octets (encodeURIComponent text) = some (text.flatMap marks) := by
    induction text with
    | nil => rfl
    | cons c text ih =>
      rw [encodeURIComponent, List.flatMap_cons, octets_encodeChar, ← encodeURIComponent, ih]
      rfl
  rw [decodeURIComponent, hoctets]
  show decodeOctets 0 0 0 (text.flatMap marks) = some text
  clear hoctets
  induction text with
  | nil => rfl
  | cons c text ih =>
    rw [List.flatMap_cons, decodeOctets_marks, ih]
    rfl

end PercentEncoding
