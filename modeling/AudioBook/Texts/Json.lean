import Mathlib.Data.List.DropRight
import Mathlib.Data.Nat.Digits.Defs
import Mathlib.Tactic.Common

/-!
# JSON

What JSON is made of, over any kinds of scalars and keys: an array has items, and an object has
members in some order. The texts of strings and numbers are those that JavaScript writes, as code
units.

Main results:

- `Json.induction`: what holds of all values.
- `Decodes.items`: a separated list can be read back if its items can.
- `decodes_quote`, `decodes_numberText`: strings and numbers can be read back.
-/

inductive Json (κ α : Type) where
  | scalar (value : α)
  | array (items : List (Json κ α))
  | object (members : List (κ × Json κ α))

namespace Json

variable {κ α : Type} {v : Json κ α}

theorem sizeOf_item [SizeOf κ] [SizeOf α] {items : List (Json κ α)} (h : v ∈ items) :
    sizeOf v < sizeOf (array items : Json κ α) := by
  have hlt := List.sizeOf_lt_of_mem h
  rw [array.sizeOf_spec]
  omega

theorem sizeOf_member [SizeOf κ] [SizeOf α] {members : List (κ × Json κ α)} {m : κ × Json κ α}
    (h : m ∈ members) : sizeOf m.2 < sizeOf (object members : Json κ α) := by
  have hlt := List.sizeOf_lt_of_mem h
  obtain ⟨k, v⟩ := m
  rw [Prod.mk.sizeOf_spec] at hlt
  rw [object.sizeOf_spec]
  dsimp only
  omega

@[elab_as_elim]
theorem induction {P : Json κ α → Prop} (scalar : ∀ value, P (.scalar value))
    (array : ∀ items, (∀ v ∈ items, P v) → P (.array items))
    (object : ∀ members, (∀ m ∈ members, P m.2) → P (.object members)) : ∀ v, P v
  | .scalar value => scalar value
  | .array items => array items fun v _ => induction scalar array object v
  | .object members => object members fun m _ => induction scalar array object m.2
termination_by v => sizeOf v
decreasing_by
  · exact sizeOf_item ‹_›
  · exact sizeOf_member ‹_›

end Json

/-! ## Texts That Can Be Read Back -/

section Decodes

variable {α β : Type} {text : α → List β} {ends : List β → Prop} {R : α → α → Prop}

/-- Whatever ends the text of a value, the text determines the value, up to a relation, and what
stands behind it. -/
def Decodes (R : α → α → Prop) (ends : List β → Prop) (text : α → List β) (x : α) : Prop :=
  ∀ y rest rest', ends rest → ends rest' → text x ++ rest = text y ++ rest' → R x y ∧ rest = rest'

theorem span_inj {p : β → Prop} {a a' b b' : List β} (ha : ∀ x ∈ a, p x) (ha' : ∀ x ∈ a', p x)
    (hb : ∀ x ∈ b.head?, ¬ p x) (hb' : ∀ x ∈ b'.head?, ¬ p x) (h : a ++ b = a' ++ b') :
    a = a' ∧ b = b' := by
  induction a generalizing a' with
  | nil =>
    cases a' with
    | nil => exact ⟨rfl, h⟩
    | cons x a' =>
      obtain rfl : b = x :: (a' ++ b') := h
      exact absurd (ha' x List.mem_cons_self) (hb x rfl)
  | cons x a ih =>
    cases a' with
    | nil =>
      obtain rfl : x :: (a ++ b) = b' := h
      exact absurd (ha x List.mem_cons_self) (hb' x rfl)
    | cons y a' =>
      obtain ⟨rfl, htail⟩ := List.cons_eq_cons.mp h
      obtain ⟨rfl, rfl⟩ := ih (fun z hz => ha z (List.mem_cons_of_mem _ hz))
        (fun z hz => ha' z (List.mem_cons_of_mem _ hz)) htail
      exact ⟨rfl, rfl⟩

theorem append_cons_inj {sep : β} {a a' b b' : List β} (ha : sep ∉ a) (ha' : sep ∉ a')
    (h : a ++ sep :: b = a' ++ sep :: b') : a = a' ∧ b = b' := by
  obtain ⟨heq, hrest⟩ := span_inj (p := (· ≠ sep)) (fun x hx heq => ha (heq ▸ hx))
    (fun x hx heq => ha' (heq ▸ hx)) (by simp) (by simp) h
  exact ⟨heq, (List.cons.inj hrest).2⟩

theorem intercalate_map_singleton (sep : β) (x : α) :
    [sep].intercalate ([x].map text) = text x := by
  simp [List.intercalate]

theorem intercalate_map_cons (sep : β) (x y : α) (l : List α) :
    [sep].intercalate ((x :: y :: l).map text) =
      text x ++ sep :: [sep].intercalate ((y :: l).map text) := by
  simp [List.intercalate]

theorem close_ne_intercalate {sep close : β}
    (hstart : ∀ x, ∃ c rest, text x = c :: rest ∧ c ≠ close) (x : α) (l : List α) (rest rest' : List β) :
    close :: rest ≠ [sep].intercalate ((x :: l).map text) ++ rest' := by
  obtain ⟨c, more, hx, hc⟩ := hstart x
  intro heq
  cases l with
  | nil =>
    rw [intercalate_map_singleton, hx] at heq
    exact hc (List.cons_eq_cons.mp heq).1.symm
  | cons y l =>
    rw [intercalate_map_cons, hx] at heq
    exact hc (List.cons_eq_cons.mp heq).1.symm

theorem Decodes.items {sep close : β} (hne : sep ≠ close) (hsep : ∀ rest, ends (sep :: rest))
    (hclose : ∀ rest, ends (close :: rest))
    (hstart : ∀ x, ∃ c rest, text x = c :: rest ∧ c ≠ close) {items items' : List α}
    (h : ∀ x ∈ items, Decodes R ends text x) {rest rest' : List β}
    (heq : [sep].intercalate (items.map text) ++ close :: rest =
      [sep].intercalate (items'.map text) ++ close :: rest') :
    List.Forall₂ R items items' ∧ rest = rest' := by
  induction items generalizing items' with
  | nil =>
    cases items' with
    | nil => exact ⟨.nil, (List.cons_eq_cons.mp heq).2⟩
    | cons y l => exact absurd heq (close_ne_intercalate hstart y l _ _)
  | cons x items ih =>
    obtain ⟨hx, hitems⟩ := List.forall_mem_cons.mp h
    cases items' with
    | nil => exact absurd heq.symm (close_ne_intercalate hstart x items _ _)
    | cons y items' =>
      cases items with
      | nil =>
        cases items' with
        | nil =>
          rw [intercalate_map_singleton, intercalate_map_singleton] at heq
          obtain ⟨hxy, hrest⟩ := hx y _ _ (hclose _) (hclose _) heq
          exact ⟨.cons hxy .nil, (List.cons_eq_cons.mp hrest).2⟩
        | cons z items' =>
          rw [intercalate_map_singleton, intercalate_map_cons, List.append_assoc] at heq
          -- one text is closed where the other goes on
          obtain ⟨-, hrest⟩ := hx y _ _ (hclose _) (hsep _) heq
          exact absurd (List.cons_eq_cons.mp hrest).1.symm hne
      | cons x' items =>
        cases items' with
        | nil =>
          rw [intercalate_map_singleton, intercalate_map_cons, List.append_assoc] at heq
          obtain ⟨-, hrest⟩ := hx y _ _ (hsep _) (hclose _) heq
          exact absurd (List.cons_eq_cons.mp hrest).1 hne
        | cons z items' =>
          rw [intercalate_map_cons, intercalate_map_cons, List.append_assoc,
            List.append_assoc] at heq
          obtain ⟨hxy, hrest⟩ := hx y _ _ (hsep _) (hsep _) heq
          obtain ⟨hitems, hrest⟩ := ih hitems (List.cons_eq_cons.mp hrest).2
          exact ⟨.cons hxy hitems, hrest⟩

end Decodes

/-! ## Strings -/

namespace JsonText

/-- A lower-case hexadecimal digit. -/
def hexUnit (n : ℕ) : ℕ := if n < 10 then 48 + n else 87 + n

def isSurrogate (u : ℕ) : Bool := decide (0xd800 ≤ u ∧ u ≤ 0xdfff)

/-- A code unit in quotation marks. -/
def quoteUnit (u : ℕ) : List ℕ :=
  match [(34, 34), (92, 92), (8, 98), (9, 116), (10, 110), (12, 102), (13, 114)].lookup u with
  | some c => [92, c]
  | none =>
      if u < 0x20 ∨ isSurrogate u = true then
        [92, 117, hexUnit (u / 4096), hexUnit (u / 256 % 16), hexUnit (u / 16 % 16),
          hexUnit (u % 16)]
      else [u]

/-- A surrogate that is part of a pair stays as it is. -/
def quoteUnits : List ℕ → List ℕ
  | high :: low :: rest =>
      if (0xd800 ≤ high ∧ high ≤ 0xdbff) ∧ 0xdc00 ≤ low ∧ low ≤ 0xdfff then
        high :: low :: quoteUnits rest
      else quoteUnit high ++ quoteUnits (low :: rest)
  | [u] => quoteUnit u
  | [] => []

/-- `JSON.stringify` of a string. -/
def quote (units : List ℕ) : List ℕ := 34 :: (quoteUnits units ++ [34])

def unitValue (c : ℕ) : ℕ := if c < 58 then c - 48 else c - 87

/-- Read up to the closing quotation mark. -/
def readUnits : List ℕ → Option (List ℕ × List ℕ)
  | [] => none
  | 34 :: rest => some ([], rest)
  | 92 :: 117 :: a :: b :: c :: d :: rest =>
      (readUnits rest).map fun read =>
        ((4096 * unitValue a + 256 * unitValue b + 16 * unitValue c + unitValue d) :: read.1,
          read.2)
  | 92 :: e :: rest =>
      (([(34, 34), (92, 92), (98, 8), (116, 9), (110, 10), (102, 12), (114, 13)].lookup e).bind
        fun u => (readUnits rest).map fun read => (u :: read.1, read.2))
  | u :: rest => (readUnits rest).map fun read => (u :: read.1, read.2)

theorem readUnits_plain {u : ℕ} (hquote : u ≠ 34) (hescape : u ≠ 92) (rest : List ℕ) :
    readUnits (u :: rest) = (readUnits rest).map fun read => (u :: read.1, read.2) := by
  rw [readUnits.eq_def]
  split
  case h_1 heq => cases heq
  case h_2 heq => exact absurd (List.cons_eq_cons.mp heq).1 hquote
  case h_3 heq => exact absurd (List.cons_eq_cons.mp heq).1 hescape
  case h_4 heq => exact absurd (List.cons_eq_cons.mp heq).1 hescape
  case h_5 heq =>
    obtain ⟨rfl, rfl⟩ := List.cons_eq_cons.mp heq
    rfl

theorem unitValue_hexUnit {n : ℕ} (h : n < 16) : unitValue (hexUnit n) = n := by
  have hall : ∀ n < 16, unitValue (hexUnit n) = n := by decide
  exact hall n h

theorem readUnits_quoteUnit (u : ℕ) (rest : List ℕ) :
    readUnits (quoteUnit u ++ rest) = (readUnits rest).map fun read => (u :: read.1, read.2) := by
  unfold quoteUnit
  split
  case h_1 c heq =>
    -- the escapes with a letter
    obtain ⟨front, back, hlist, -⟩ := List.lookup_eq_some_iff.mp heq
    have hmem : (u, c) ∈ front ++ (u, c) :: back := by simp
    rw [← hlist] at hmem
    simp only [List.mem_cons, Prod.mk.injEq, List.not_mem_nil, or_false] at hmem
    rcases hmem with ⟨rfl, rfl⟩ | ⟨rfl, rfl⟩ | ⟨rfl, rfl⟩ | ⟨rfl, rfl⟩ | ⟨rfl, rfl⟩ |
      ⟨rfl, rfl⟩ | ⟨rfl, rfl⟩ <;> rfl
  case h_2 heq =>
    split
    case isTrue hcontrol =>
      -- the four digits of the code unit
      have hlt : u < 65536 := by
        rcases hcontrol with hcontrol | hcontrol
        · omega
        · have hrange := of_decide_eq_true hcontrol
          omega
      have hvalue : 4096 * (u / 4096) + 256 * (u / 256 % 16) + 16 * (u / 16 % 16) + u % 16 = u := by
        omega
      simp only [List.cons_append, List.nil_append, readUnits]
      rw [unitValue_hexUnit (by omega), unitValue_hexUnit (by omega), unitValue_hexUnit (by omega),
        unitValue_hexUnit (by omega), hvalue]
    case isFalse =>
      refine readUnits_plain ?_ ?_ rest
      · rintro rfl
        cases heq
      · rintro rfl
        cases heq

theorem readUnits_quoteUnits (units rest : List ℕ) :
    readUnits (quoteUnits units ++ 34 :: rest) = some (units, rest) := by
  fun_induction quoteUnits units with
  | case1 high low others hpair ih =>
    -- surrogates are not among the units that are read in another way
    rw [List.cons_append, List.cons_append, readUnits_plain (by omega) (by omega),
      readUnits_plain (by omega) (by omega), ih]
    rfl
  | case2 high low others hpair ih =>
    rw [List.append_assoc, readUnits_quoteUnit, ih]
    rfl
  | case3 u =>
    rw [readUnits_quoteUnit]
    rfl
  | case4 => rfl

theorem decodes_quote (ends : List ℕ → Prop) (units : List ℕ) :
    Decodes Eq ends quote units := by
  intro units' rest rest' _ _ heq
  have htail : quoteUnits units ++ 34 :: rest = quoteUnits units' ++ 34 :: rest' := by
    simpa [quote] using heq
  have hread := (readUnits_quoteUnits units rest).symm.trans
    ((congrArg readUnits htail).trans (readUnits_quoteUnits units' rest'))
  simpa using hread

/-! ## Numbers -/

/-- A number other than zero: its digits behind the decimal point, the first and the last of them
not zero, and how far the point is moved to the right. -/
structure Decimal where
  negative : Bool
  digits : List ℕ
  point : ℤ
  lt : ∀ d ∈ digits, d < 10
  nonempty : digits ≠ []
  first : digits.head? ≠ some 0
  last : digits.getLast? ≠ some 0

/-- A number; `none` is zero. -/
abbrev Number := Option Decimal

/-- What is written of a number: the digits before and behind a point, and an exponent. -/
structure Parts where
  int : List ℕ
  frac : List ℕ
  exp : Option ℤ

/-- The parts of a number, in one of four notations. -/
def Decimal.parts (d : Decimal) : Parts :=
  let k : ℤ := d.digits.length
  let n := d.point
  if k ≤ n ∧ n ≤ 21 then ⟨d.digits ++ List.replicate (n - k).toNat 0, [], none⟩
  else if 0 < n ∧ n ≤ 21 then ⟨d.digits.take n.toNat, d.digits.drop n.toNat, none⟩
  else if -6 < n ∧ n ≤ 0 then ⟨[0], List.replicate (-n).toNat 0 ++ d.digits, none⟩
  else ⟨d.digits.take 1, d.digits.drop 1, some (n - 1)⟩

def digitsText (digits : List ℕ) : List ℕ := digits.map (48 + ·)

def expText : Option ℤ → List ℕ
  | none => []
  | some e => 101 :: (if 0 ≤ e then 43 else 45) :: digitsText (Nat.digits 10 e.natAbs).reverse

def Parts.text (p : Parts) : List ℕ :=
  digitsText p.int ++ ((if p.frac = [] then [] else 46 :: digitsText p.frac) ++ expText p.exp)

/-- `JSON.stringify` of a finite number. -/
def numberText : Number → List ℕ
  | none => [48]
  | some d => (if d.negative = true then [45] else []) ++ d.parts.text

/-- All the parts are digits. -/
structure Parts.Proper (p : Parts) : Prop where
  int : ∀ d ∈ p.int, d < 10
  frac : ∀ d ∈ p.frac, d < 10
  nonempty : p.int ≠ []

/-- The number that the parts stand for: its digits and the place of the point. -/
def Parts.value (p : Parts) : List ℕ × ℤ :=
  let digits := (p.int ++ p.frac).dropWhile fun d => decide (d = 0)
  (digits.rdropWhile fun d => decide (d = 0),
    p.int.length + p.exp.getD 0 - ((p.int ++ p.frac).length - digits.length))

def IsDigit (c : ℕ) : Prop := 48 ≤ c ∧ c ≤ 57

theorem isDigit_of_mem {digits : List ℕ} (h : ∀ d ∈ digits, d < 10) :
    ∀ c ∈ digitsText digits, IsDigit c := by
  intro c hc
  obtain ⟨d, hd, rfl⟩ := List.mem_map.mp hc
  have hlt := h d hd
  exact ⟨by omega, by omega⟩

theorem digitsText_inj {a b : List ℕ} (h : digitsText a = digitsText b) : a = b :=
  List.map_injective_iff.mpr (fun _ _ hxy => Nat.add_left_cancel hxy) h

theorem expText_inj {a b : Option ℤ} (h : expText a = expText b) : a = b := by
  cases a with
  | none => cases b with
    | none => rfl
    | some e => cases h
  | some e => cases b with
    | none => cases h
    | some e' =>
      simp only [expText, List.cons.injEq, true_and] at h
      obtain ⟨hsign, hdigits⟩ := h
      have habs := Nat.digits_inj_iff.mp (List.reverse_injective (digitsText_inj hdigits))
      split_ifs at hsign <;> grind

theorem not_isDigit_head_expText (e : Option ℤ) : ∀ c ∈ (expText e).head?, ¬ IsDigit c := by
  intro c hc hdigit
  cases e with
  | none => cases hc
  | some e =>
    obtain rfl : 101 = c := Option.some.inj hc
    exact absurd hdigit.2 (by decide)

theorem Parts.text_inj {p q : Parts} (hp : p.Proper) (hq : q.Proper) (h : p.text = q.text) :
    p = q := by
  -- what follows the whole digits starts with a point, an `e`, or not at all
  have htail (r : Parts) : ∀ c ∈ ((if r.frac = [] then [] else 46 :: digitsText r.frac) ++
      expText r.exp).head?, ¬ IsDigit c := by
    split
    · exact not_isDigit_head_expText r.exp
    · intro c hc hdigit
      obtain rfl : 46 = c := Option.some.inj hc
      exact absurd hdigit.1 (by decide)
  -- an exponent is not taken for a fraction
  have hpoint (r : Parts) (rest : List ℕ) : expText r.exp ≠ 46 :: rest := by
    intro heq
    cases hexp : r.exp with
    | none =>
      rw [hexp] at heq
      cases heq
    | some e =>
      rw [hexp] at heq
      exact absurd (List.cons_eq_cons.mp heq).1 (by decide)
  obtain ⟨hint, hrest⟩ := span_inj (isDigit_of_mem hp.int) (isDigit_of_mem hq.int) (htail p)
    (htail q) h
  obtain ⟨hfrac, hexp⟩ : p.frac = q.frac ∧ p.exp = q.exp := by
    by_cases hpfrac : p.frac = []
    · by_cases hqfrac : q.frac = []
      · rw [if_pos hpfrac, if_pos hqfrac] at hrest
        exact ⟨hpfrac.trans hqfrac.symm, expText_inj hrest⟩
      · rw [if_pos hpfrac, if_neg hqfrac] at hrest
        exact absurd hrest (hpoint p _)
    · by_cases hqfrac : q.frac = []
      · rw [if_neg hpfrac, if_pos hqfrac] at hrest
        exact absurd hrest.symm (hpoint q _)
      · rw [if_neg hpfrac, if_neg hqfrac] at hrest
        obtain ⟨hfrac, hexp⟩ := span_inj (isDigit_of_mem hp.frac) (isDigit_of_mem hq.frac)
          (not_isDigit_head_expText _) (not_isDigit_head_expText _) (List.cons_eq_cons.mp hrest).2
        exact ⟨digitsText_inj hfrac, expText_inj hexp⟩
  have hdigits := digitsText_inj hint
  cases p
  cases q
  simp only [Parts.mk.injEq]
  exact ⟨hdigits, hfrac, hexp⟩

theorem Decimal.proper (d : Decimal) : d.parts.Proper := by
  have hzero (n : ℕ) : ∀ x ∈ List.replicate n 0, x < 10 := fun x hx => by
    rw [List.eq_of_mem_replicate hx]
    decide
  unfold Decimal.parts
  dsimp only
  split_ifs
  · exact ⟨fun x hx => (List.mem_append.mp hx).elim (d.lt x) (hzero _ x), by simp,
      by simp [d.nonempty]⟩
  · refine ⟨fun x hx => d.lt x (List.mem_of_mem_take hx),
      fun x hx => d.lt x (List.mem_of_mem_drop hx), ?_⟩
    simp only [ne_eq, List.take_eq_nil_iff, d.nonempty, or_false]
    omega
  · exact ⟨by simp, fun x hx => (List.mem_append.mp hx).elim (hzero _ x) (d.lt x), by simp⟩
  · exact ⟨fun x hx => d.lt x (List.mem_of_mem_take hx),
      fun x hx => d.lt x (List.mem_of_mem_drop hx), by simp [d.nonempty]⟩

theorem Decimal.value_of_zeros (d : Decimal) (front back : ℕ) {p : Parts}
    (h : p.int ++ p.frac = List.replicate front 0 ++ (d.digits ++ List.replicate back 0)) :
    p.value = (d.digits, p.int.length + p.exp.getD 0 - front) := by
  have hzeros (n : ℕ) : ∀ x ∈ List.replicate n 0, decide (x = 0) = true := fun x hx => by
    simp [List.eq_of_mem_replicate hx]
  have hdrop : (p.int ++ p.frac).dropWhile (fun d => decide (d = 0)) =
      d.digits ++ List.replicate back 0 := by
    rw [h, List.dropWhile_append_of_pos (hzeros front)]
    cases hdigits : d.digits with
    | nil => exact absurd hdigits d.nonempty
    | cons first rest =>
      refine List.dropWhile_cons_of_neg fun hzero => d.first ?_
      rw [hdigits, of_decide_eq_true hzero]
      rfl
  have hrdrop : (d.digits ++ List.replicate back 0).rdropWhile (fun d => decide (d = 0)) =
      d.digits := by
    rw [List.rdropWhile, List.reverse_append, List.reverse_replicate,
      List.dropWhile_append_of_pos (hzeros back)]
    refine (List.rdropWhile_eq_self_iff ..).mpr fun hne hzero => d.last ?_
    rw [List.getLast?_eq_some_getLast hne, of_decide_eq_true hzero]
  rw [Parts.value, hdrop, hrdrop, h]
  simp only [List.length_append, List.length_replicate, Nat.cast_add]
  ring_nf

theorem Decimal.value (d : Decimal) : d.parts.value = (d.digits, d.point) := by
  have hpos := List.length_pos_of_ne_nil d.nonempty
  unfold Decimal.parts
  dsimp only
  split_ifs with h1 h2 h3
  · rw [d.value_of_zeros 0 (d.point - d.digits.length).toNat (by simp)]
    simp only [List.length_append, List.length_replicate, Option.getD_none, Prod.mk.injEq, true_and]
    omega
  · rw [d.value_of_zeros 0 0 (by rw [List.take_append_drop]; simp)]
    simp only [List.length_take, Option.getD_none, Prod.mk.injEq, true_and]
    omega
  · rw [d.value_of_zeros (1 + (-d.point).toNat) 0 (by simp [List.replicate_add])]
    simp only [List.length_cons, List.length_nil, Option.getD_none, Prod.mk.injEq, true_and]
    omega
  · rw [d.value_of_zeros 0 0 (by rw [List.take_append_drop]; simp)]
    simp only [List.length_take, Option.getD_some, Prod.mk.injEq, true_and]
    omega

theorem Parts.Proper.head {p : Parts} (h : p.Proper) :
    ∃ c rest, p.text = c :: rest ∧ IsDigit c := by
  obtain ⟨d, rest, hint⟩ := List.exists_cons_of_ne_nil h.nonempty
  refine ⟨48 + d, _, by rw [Parts.text, hint]; rfl, isDigit_of_mem h.int _ ?_⟩
  rw [hint]
  exact List.mem_cons_self

theorem numberText_none_ne (d : Decimal) : numberText none ≠ numberText (some d) := by
  have hzero : Parts.Proper ⟨[0], [], none⟩ := ⟨by simp, by simp, by simp⟩
  intro h
  cases hsign : d.negative with
  | true =>
    rw [numberText, numberText, hsign] at h
    exact absurd (List.cons_eq_cons.mp h).1 (by decide)
  | false =>
    rw [numberText, numberText, hsign] at h
    have hparts := Parts.text_inj hzero d.proper h
    have hvalue := d.value
    rw [← hparts] at hvalue
    exact d.nonempty (congrArg Prod.fst hvalue).symm

theorem sign_inj {d d' : Decimal} (h : numberText (some d) = numberText (some d')) :
    d.negative = d'.negative ∧ d.parts.text = d'.parts.text := by
  rw [numberText, numberText] at h
  obtain ⟨c, rest, htext, hc⟩ := d.proper.head
  obtain ⟨c', rest', htext', hc'⟩ := d'.proper.head
  cases hsign : d.negative with
  | true => cases hsign' : d'.negative with
    | true =>
      rw [hsign, hsign'] at h
      exact ⟨rfl, (List.cons_eq_cons.mp h).2⟩
    | false =>
      rw [hsign, hsign', htext'] at h
      obtain rfl := (List.cons_eq_cons.mp h).1
      exact absurd hc'.1 (by decide)
  | false => cases hsign' : d'.negative with
    | true =>
      rw [hsign, hsign', htext] at h
      obtain rfl := (List.cons_eq_cons.mp h).1
      exact absurd hc.1 (by decide)
    | false =>
      rw [hsign, hsign'] at h
      exact ⟨rfl, h⟩

theorem numberText_inj {a b : Number} (h : numberText a = numberText b) : a = b := by
  cases a with
  | none => cases b with
    | none => rfl
    | some d => exact absurd h (numberText_none_ne d)
  | some d => cases b with
    | none => exact absurd h.symm (numberText_none_ne d)
    | some d' =>
      obtain ⟨hsign, hparts⟩ := sign_inj h
      -- the parts determine the digits and the place of the point
      have hvalue := d.value
      rw [Parts.text_inj d.proper d'.proper hparts, d'.value] at hvalue
      obtain ⟨hdigits, hpoint⟩ := Prod.mk.inj hvalue
      cases d
      cases d'
      simp only [Option.some.injEq, Decimal.mk.injEq]
      exact ⟨hsign, hdigits.symm, hpoint.symm⟩

/-- A comma or a bracket, or nothing at all. -/
def EndsValue (rest : List ℕ) : Prop := ∀ c ∈ rest.head?, c ∈ [44, 93, 125]

/-- What a number is written with. -/
def IsNumberUnit (c : ℕ) : Prop := IsDigit c ∨ c ∈ [43, 45, 46, 101]

theorem isNumberUnit_of_mem_expText (e : Option ℤ) : ∀ c ∈ expText e, IsNumberUnit c := by
  intro c hc
  cases e with
  | none => cases hc
  | some e =>
    rcases List.mem_cons.mp hc with rfl | hc
    · exact .inr (by decide)
    rcases List.mem_cons.mp hc with rfl | hc
    · split
      · exact .inr (by decide)
      · exact .inr (by decide)
    · exact .inl (isDigit_of_mem
        (fun d hd => Nat.digits_lt_base (by decide) (List.mem_reverse.mp hd)) c hc)

theorem isNumberUnit_of_mem (n : Number) : ∀ c ∈ numberText n, IsNumberUnit c := by
  intro c hc
  cases n with
  | none =>
    obtain rfl := List.mem_singleton.mp hc
    exact .inl ⟨by decide, by decide⟩
  | some d =>
    rcases List.mem_append.mp hc with hc | hc
    · split at hc
      · exact .inr (by simp [List.mem_singleton.mp hc])
      · cases hc
    rcases List.mem_append.mp hc with hc | hc
    · exact .inl (isDigit_of_mem d.proper.int c hc)
    rcases List.mem_append.mp hc with hc | hc
    · split at hc
      · cases hc
      rcases List.mem_cons.mp hc with rfl | hc
      · exact .inr (by decide)
      · exact .inl (isDigit_of_mem d.proper.frac c hc)
    · exact isNumberUnit_of_mem_expText _ c hc

theorem decodes_numberText (n : Number) : Decodes Eq EndsValue numberText n := by
  intro n' rest rest' hrest hrest' heq
  -- no number goes on with a comma or a bracket
  have hends {rest : List ℕ} (h : EndsValue rest) : ∀ c ∈ rest.head?, ¬ IsNumberUnit c := by
    intro c hc hunit
    have hmem := h c hc
    simp only [List.mem_cons, List.not_mem_nil, or_false] at hmem
    rcases hmem with rfl | rfl | rfl <;> rcases hunit with hdigit | hunit
    all_goals first
      | exact absurd hdigit (by unfold IsDigit; decide)
      | exact absurd hunit (by decide)
  obtain ⟨htext, hrest⟩ := span_inj (isNumberUnit_of_mem n) (isNumberUnit_of_mem n') (hends hrest)
    (hends hrest') heq
  exact ⟨numberText_inj htext, hrest⟩

end JsonText
