import AudioBook.Keys.Segments
import AudioBook.Schema.Rows

/-!
# Storage Keys

`buildStorageKey` of `key.ts` joins a tenant id and segments, which it checks by different rules: a
segment must not contain `..`, but the tenant id may, and both may be a single dot.

Main results:

- `insideTenant_iff`: when an accepted key stays inside the tenant; different inputs never have the
  same key.
-/

namespace AudioBook.StorageKeys

open Keys

/-- `SAFE_SEGMENT_PATTERN.test(text)`. -/
def isSafe (text : Text) : Bool :=
  !text.isEmpty && text.all fun c => c.isAlphanum || decide (c ∈ ['.', '_', '-'])

/-- `segment.includes('..')`. -/
def includesDots : Text → Bool
  | '.' :: '.' :: _ => true
  | _ :: rest => includesDots rest
  | [] => false

def isSegment (segment : Text) : Bool :=
  !(includesDots segment || decide ('/' ∈ segment) || !isSafe segment)

/-- `buildStorageKey`; an error has a message. -/
def buildStorageKey (tenantId : Text) (segments : List Text) : Except Text Text :=
  if !isSafe tenantId then .error ("Invalid tenantId for storage key: ".toList ++ tenantId)
  else
    match segments.find? fun segment => !isSegment segment with
    | some segment => .error ("Invalid storage key segment: ".toList ++ segment)
    | none => .ok (['/'].intercalate (tenantId :: segments))

/-- The tenant id and the segments pass the checks. -/
def Accepted (tenantId : Text) (segments : List Text) : Prop :=
  isSafe tenantId = true ∧ ∀ segment ∈ segments, isSegment segment = true

/-- A component that names a directory, rather than something in it. -/
def IsDots (component : Text) : Prop := component = ['.'] ∨ component = ['.', '.']

/-- A key begins with the tenant id and a slash, and none of its components is empty or dots. -/
def Inside (tenantId key : Text) : Prop :=
  tenantId ++ ['/'] <+: key ∧ ∀ component ∈ key.splitOn '/', component ≠ [] ∧ ¬ IsDots component

/-- Whatever key the inputs have stays inside the tenant. -/
def InsideTenant (tenantId : Text) (segments : List Text) : Prop :=
  ∀ key, buildStorageKey tenantId segments = .ok key → Inside tenantId key

variable {tenantId tenantId' key : Text} {segments segments' : List Text}

theorem buildStorageKey_eq_ok_iff :
    buildStorageKey tenantId segments = .ok key ↔
      Accepted tenantId segments ∧ key = ['/'].intercalate (tenantId :: segments) := by
  rw [buildStorageKey, Accepted]
  cases htenant : isSafe tenantId with
  | false => simp
  | true =>
    cases hfind : segments.find? fun segment => !isSegment segment with
    | some segment =>
      have hbad := List.find?_some hfind
      have hmem := List.mem_of_find?_eq_some hfind
      refine iff_of_false (by simp) fun h => ?_
      simp [h.1.2 segment hmem] at hbad
    | none =>
      have hall : ∀ segment ∈ segments, isSegment segment = true := by
        simpa using List.find?_eq_none.mp hfind
      refine ⟨fun h => ⟨⟨rfl, hall⟩, (Except.ok.inj h).symm⟩, ?_⟩
      rintro ⟨-, rfl⟩
      rfl

theorem isSafe_of_isSegment {segment : Text} (h : isSegment segment = true) :
    isSafe segment = true := by
  simp only [isSegment, Bool.not_eq_true', Bool.or_eq_false_iff, Bool.not_eq_false'] at h
  exact h.2

theorem ne_nil_of_isSafe {text : Text} (h : isSafe text = true) : text ≠ [] := by
  rintro rfl
  cases h

theorem not_mem_of_isSafe {text : Text} (h : isSafe text = true) : '/' ∉ text := by
  intro hmem
  rw [isSafe, Bool.and_eq_true, List.all_eq_true] at h
  exact absurd (h.2 '/' hmem) (by decide)

theorem Accepted.isSafe (h : Accepted tenantId segments) :
    ∀ component ∈ tenantId :: segments, isSafe component = true := by
  intro component hmem
  rcases List.mem_cons.mp hmem with rfl | hmem
  · exact h.1
  · exact isSafe_of_isSegment (h.2 component hmem)

theorem Accepted.splitOn (h : Accepted tenantId segments) :
    (['/'].intercalate (tenantId :: segments)).splitOn '/' = tenantId :: segments :=
  List.splitOn_intercalate '/' (fun component hmem => not_mem_of_isSafe (h.isSafe component hmem))
    (List.cons_ne_nil _ _)

theorem ne_dots_of_isSegment {segment : Text} (h : isSegment segment = true) :
    segment ≠ ['.', '.'] := by
  rintro rfl
  exact absurd h (by decide)

theorem prefix_iff :
    tenantId ++ ['/'] <+: ['/'].intercalate (tenantId :: segments) ↔ segments ≠ [] := by
  cases segments with
  | nil =>
    rw [List.intercalate_singleton]
    refine iff_of_false (fun h => ?_) (by simp)
    have hlength := h.length_le
    rw [List.length_append, List.length_singleton] at hlength
    omega
  | cons segment segments =>
    rw [List.intercalate_cons_cons]
    exact iff_of_true (List.prefix_append _ _) (List.cons_ne_nil _ _)

/-- `buildStorageKey`. An accepted key stays inside its tenant exactly if there is a segment, the
tenant id is not made of one dot or two, and no segment is a dot; and only the same inputs have the
same key. -/
theorem insideTenant_iff (tenantId tenantId' : Text) (segments segments' : List Text) :
    (InsideTenant tenantId segments ↔
      (Accepted tenantId segments → segments ≠ [] ∧ ¬ IsDots tenantId ∧ ['.'] ∉ segments)) ∧
    (∀ key, buildStorageKey tenantId segments = .ok key →
      buildStorageKey tenantId' segments' = .ok key →
        tenantId = tenantId' ∧ segments = segments') := by
  constructor
  · simp only [InsideTenant, buildStorageKey_eq_ok_iff, and_imp, forall_eq_apply_imp_iff, Inside,
      prefix_iff]
    refine forall_congr' fun h => and_congr_right fun _ => ?_
    -- the components of the key are the tenant id and the segments
    rw [h.splitOn, List.forall_mem_cons]
    constructor
    · rintro ⟨⟨-, htenant⟩, hsegments⟩
      exact ⟨htenant, fun hmem => (hsegments _ hmem).2 (.inl rfl)⟩
    · rintro ⟨htenant, hdot⟩
      refine ⟨⟨ne_nil_of_isSafe h.1, htenant⟩, fun segment hmem => ?_⟩
      have hsegment := h.2 segment hmem
      refine ⟨ne_nil_of_isSafe (isSafe_of_isSegment hsegment), ?_⟩
      rintro (rfl | rfl)
      · exact hdot hmem
      · exact ne_dots_of_isSegment hsegment rfl
  · intro key h h'
    obtain ⟨haccepted, hkey⟩ := buildStorageKey_eq_ok_iff.mp h
    obtain ⟨haccepted', hkey'⟩ := buildStorageKey_eq_ok_iff.mp h'
    have hsplit : tenantId :: segments = tenantId' :: segments' := by
      rw [← haccepted.splitOn, ← haccepted'.splitOn, ← hkey, ← hkey']
    exact List.cons.inj hsplit

theorem not_forall_insideTenant :
    ¬ ∀ (tenantId : Text) (segments : List Text), InsideTenant tenantId segments := by
  intro h
  have hkey : buildStorageKey "..".toList ["books".toList] = .ok "../books".toList := by
    decide +kernel
  have hdots := (h _ _ _ hkey).2 "..".toList (by decide +kernel)
  exact hdots.2 (.inr rfl)

end AudioBook.StorageKeys
