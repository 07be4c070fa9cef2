import Mathlib.Algebra.Group.Nat.Defs
import Mathlib.Data.List.DropRight
import Mathlib.Data.List.Induction
import Mathlib.Data.List.Infix
import Mathlib.Tactic.Common

/-!
# Paths of URLs

A URL is requested with a path whose dot components have been resolved: components are put on a
stack, a double dot removes the last one, and at the root it removes nothing. What is left of a walk
like this depends on how often it goes up and down in the parts of the list.

Main results:

- `walk_eq_iff`: which walks end in two given places.
- `starts_resolve_iff`: which components resolve to a path behind two given ones.
- `parse_append`: what stands behind the origin of a URL says nothing about the origin.
-/

namespace Url

/-! ## Walks -/

inductive Move
  | push
  | pop
  | stay
  deriving DecidableEq

section Walks

variable {α : Type*} (move : α → Move)

def step (stack : List α) (x : α) : List α :=
  match move x with
  | .push => x :: stack
  | .pop => stack.tail
  | .stay => stack

/-- The stack behind a list, the last place first. -/
def walk (l : List α) : List α := l.foldl (step move) []

/-- How often a list goes down. -/
def pushes (l : List α) : ℕ := l.countP fun x => decide (move x = .push)

/-- How often a list goes up. -/
def pops (l : List α) : ℕ := l.countP fun x => decide (move x = .pop)

/-- A list never leaves the place in which it starts. -/
def Stays (l : List α) : Prop := ∀ front, front <+: l → pops move front ≤ pushes move front

/-- A list ends at the root. -/
def Returns (l : List α) : Prop := ∀ back, back <:+ l → pushes move back ≤ pops move back

variable {move} {l : List α} {x a b : α} {top : List α}

theorem pushes_concat :
    pushes move (l ++ [x]) = pushes move l + if move x = .push then 1 else 0 := by
  simp [pushes, List.countP_append, List.countP_cons]

theorem pops_concat : pops move (l ++ [x]) = pops move l + if move x = .pop then 1 else 0 := by
  simp [pops, List.countP_append, List.countP_cons]

theorem walk_concat : walk move (l ++ [x]) = step move (walk move l) x := by
  rw [walk, List.foldl_append]
  rfl

theorem Stays.front {front : List α} (h : Stays move l) (hfront : front <+: l) :
    Stays move front := fun _ hpre => h _ (hpre.trans hfront)

theorem Stays.concat (h : Stays move l)
    (hx : pops move (l ++ [x]) ≤ pushes move (l ++ [x])) : Stays move (l ++ [x]) := by
  intro front hfront
  rcases List.prefix_concat_iff.mp hfront with rfl | hfront
  · exact hx
  · exact h front hfront

theorem Stays.foldl (h : Stays move l) :
    (∀ stack, l.foldl (step move) stack = walk move l ++ stack) ∧
      (walk move l).length + pops move l = pushes move l := by
  induction l using List.reverseRecOn with
  | nil => exact ⟨fun _ => rfl, rfl⟩
  | append_singleton l x ih =>
    obtain ⟨hfold, hlength⟩ := ih (h.front (List.prefix_append _ _))
    have hlast := h _ List.prefix_rfl
    rw [pushes_concat, pops_concat] at hlast
    simp only [List.foldl_append, List.foldl_cons, List.foldl_nil, hfold, walk_concat,
      pushes_concat, pops_concat]
    cases hx : move x with
    | push => simp only [step, hx]; grind
    | stay => simp only [step, hx]; grind
    | pop =>
      -- one more place than the list has left so far
      have hpos : walk move l ≠ [] := by
        rw [hx] at hlast
        rintro hnil
        simp only [hnil, List.length_nil, reduceCtorEq, if_false, if_true] at hlength hlast
        omega
      obtain ⟨y, rest, heq⟩ := List.exists_cons_of_ne_nil hpos
      simp only [step, hx, heq] at hlength ⊢
      grind

theorem length_walk_le_iff {k : ℕ} :
    (walk move l).length ≤ k ↔ ∀ back, back <:+ l → pushes move back ≤ pops move back + k := by
  induction l using List.reverseRecOn generalizing k with
  | nil => simp [walk, pushes, pops]
  | append_singleton l x ih =>
    -- the suffixes that are not empty end with the last element
    have hback : (∀ back, back <:+ l ++ [x] → pushes move back ≤ pops move back + k) ↔
        ∀ back, back <:+ l →
          pushes move (back ++ [x]) ≤ pops move (back ++ [x]) + k := by
      constructor
      · intro h back hback
        exact h _ (List.suffix_concat_iff.mpr (.inr ⟨back, rfl, hback⟩))
      · intro h back hback
        rcases List.suffix_concat_iff.mp hback with rfl | ⟨rest, rfl, hrest⟩
        · exact Nat.zero_le _
        · exact h rest hrest
    rw [hback, walk_concat]
    simp only [pushes_concat, pops_concat]
    cases hx : move x with
    | stay => simpa [step, hx] using ih
    | pop =>
      simp only [step, hx, List.length_tail, reduceCtorEq, if_true, if_false, Nat.sub_le_iff_le_add]
      rw [ih]
      exact forall₂_congr fun _ _ => by omega
    | push =>
      simp only [step, hx, List.length_cons, reduceCtorEq, if_true, if_false]
      cases k with
      | zero =>
        refine iff_of_false (Nat.not_succ_le_zero _) fun hall => ?_
        have hnil := hall [] List.nil_suffix
        simp [pushes, pops] at hnil
      | succ k =>
        rw [Nat.succ_le_succ_iff, ih]
        exact forall₂_congr fun _ _ => by omega

theorem walk_eq_nil_iff : walk move l = [] ↔ Returns move l := by
  rw [← List.length_eq_zero_iff, ← Nat.le_zero, length_walk_le_iff]
  rfl

theorem walk_eq_concat (h : walk move l = top ++ [a]) :
    ∃ before tail, l = before ++ a :: tail ∧ Returns move before ∧ Stays move tail ∧
      walk move tail = top ∧ move a = .push := by
  induction l using List.reverseRecOn generalizing top with
  | nil => simp [walk] at h
  | append_singleton l x ih =>
    rw [walk_concat] at h
    cases hx : move x with
    | stay =>
      -- the stack is the same, and the tail gets one element longer
      simp only [step, hx] at h
      obtain ⟨before, tail, rfl, hbefore, htail, htop, ha⟩ := ih h
      refine ⟨before, tail ++ [x], by simp, hbefore, htail.concat ?_, ?_, ha⟩
      · rw [pushes_concat, pops_concat, hx]
        exact htail tail List.prefix_rfl
      · rw [walk_concat, step, hx]
        exact htop
    | pop =>
      simp only [step, hx] at h
      obtain ⟨y, hy⟩ : ∃ y, walk move l = (y :: top) ++ [a] := by
        cases hwalk : walk move l with
        | nil => simp [hwalk] at h
        | cons y rest =>
          rw [hwalk, List.tail_cons] at h
          exact ⟨y, by rw [h, List.cons_append]⟩
      obtain ⟨before, tail, rfl, hbefore, htail, htop, ha⟩ := ih hy
      -- the place that is left lies above `a`
      have hlength := htail.foldl.2
      rw [htop, List.length_cons] at hlength
      refine ⟨before, tail ++ [x], by simp, hbefore, htail.concat ?_, ?_, ha⟩
      · rw [pushes_concat, pops_concat, hx]
        simp only [reduceCtorEq, if_true, if_false]
        omega
      · rw [walk_concat, htop, step, hx]
        rfl
    | push =>
      simp only [step, hx] at h
      cases top with
      | nil =>
        -- the first place is reached only now
        obtain ⟨rfl, hnil⟩ := List.cons_eq_cons.mp h
        exact ⟨l, [], rfl, walk_eq_nil_iff.mp hnil, by simp [Stays, pops, pushes], rfl, hx⟩
      | cons y top =>
        obtain ⟨rfl, hwalk⟩ := List.cons_eq_cons.mp h
        obtain ⟨before, tail, rfl, hbefore, htail, htop, ha⟩ := ih hwalk
        refine ⟨before, tail ++ [x], by simp, hbefore, htail.concat ?_, ?_, ha⟩
        · rw [pushes_concat, pops_concat, hx]
          exact (htail tail List.prefix_rfl).trans (Nat.le_add_right _ _)
        · rw [walk_concat, htop, step, hx]

theorem walk_eq_append {before mid tail : List α} (ha : move a = .push) (hb : move b = .push)
    (hbefore : Returns move before) (hmid : Stays move mid)
    (heq : pushes move mid = pops move mid) (htail : Stays move tail) :
    walk move (before ++ a :: (mid ++ b :: tail)) = walk move tail ++ [b, a] := by
  have hfold : before.foldl (step move) [] = [] := walk_eq_nil_iff.mpr hbefore
  have hlength := hmid.foldl.2
  have hnil : walk move mid = [] := List.eq_nil_of_length_eq_zero (by omega)
  rw [walk, List.foldl_append, hfold, List.foldl_cons, List.foldl_append, hmid.foldl.1, hnil,
    List.foldl_cons, htail.foldl.1]
  simp [step, ha, hb]

theorem walk_eq_iff (ha : move a = .push) (hb : move b = .push) :
    (∃ top, walk move l = top ++ [b, a]) ↔
      ∃ before mid tail, l = before ++ a :: (mid ++ b :: tail) ∧ Returns move before ∧
        Stays move mid ∧ pushes move mid = pops move mid ∧ Stays move tail := by
  constructor
  · rintro ⟨top, htop⟩
    have hab : walk move l = (top ++ [b]) ++ [a] := by simpa using htop
    obtain ⟨before, tail, rfl, hbefore, htail, hwalk, -⟩ := walk_eq_concat hab
    obtain ⟨mid, tail, rfl, hmid, htail', -, -⟩ := walk_eq_concat hwalk
    -- what lies between the two places is a part of the first tail
    have hstays := htail.front (List.prefix_append mid (b :: tail))
    have hlength := hstays.foldl.2
    rw [walk_eq_nil_iff.mpr hmid, List.length_nil, Nat.zero_add] at hlength
    exact ⟨before, mid, tail, rfl, hbefore, hstays, hlength.symm, htail'⟩
  · rintro ⟨before, mid, tail, rfl, hbefore, hmid, heq, htail⟩
    exact ⟨_, walk_eq_append ha hb hbefore hmid heq htail⟩

end Walks

/-! ## Paths -/

def isSingleDot (component : List Char) : Bool :=
  [['.'], ['%', '2', 'e']].contains (component.map Char.toLower)

def isDoubleDot (component : List Char) : Bool :=
  [['.', '.'], ['.', '%', '2', 'e'], ['%', '2', 'e', '.'], ['%', '2', 'e', '%', '2', 'e']].contains
    (component.map Char.toLower)

def moveOf (component : List Char) : Move :=
  if isDoubleDot component = true then .pop
  else if isSingleDot component = true then .stay
  else .push

/-- Whether the last component is a dot component, behind which the path ends with a slash. -/
def endsWithDots (components : List (List Char)) : Bool :=
  components.getLast?.any fun component => decide (moveOf component ≠ .push)

/-- The components of a path without its dot components. -/
def resolve (components : List (List Char)) : List (List Char) :=
  ((if endsWithDots components = true then [[]] else []) ++ walk moveOf components).reverse

variable {a b : List Char}

theorem endsWithDots_concat {components : List (List Char)} {last : List Char} :
    endsWithDots (components ++ [last]) = decide (moveOf last ≠ .push) := by
  rw [endsWithDots, List.getLast?_concat]
  rfl

theorem walk_of_resolve {third : List Char} {components rest : List (List Char)}
    (h : resolve components = a :: b :: third :: rest) :
    ∃ top, walk moveOf components = top ++ [b, a] := by
  -- a path that ends with dots has an empty component on the stack
  have hstack := List.reverse_eq_iff.mp h
  split at hstack
  · rcases hrest : rest.reverse with _ | ⟨last, rest⟩
    · rw [List.reverse_cons, List.reverse_cons, List.reverse_cons, hrest] at hstack
      exact ⟨[], (List.cons_eq_cons.mp hstack).2⟩
    · rw [List.reverse_cons, List.reverse_cons, List.reverse_cons, hrest] at hstack
      exact ⟨rest ++ [third], by simpa using (List.cons_eq_cons.mp hstack).2⟩
  · exact ⟨rest.reverse ++ [third], by simpa using hstack⟩

theorem starts_resolve_iff (ha : moveOf a = .push) (hb : moveOf b = .push)
    {components : List (List Char)} :
    (∃ third rest, resolve components = a :: b :: third :: rest) ↔
      ∃ before mid tail, components = before ++ a :: (mid ++ b :: tail) ∧
        Returns moveOf before ∧ Stays moveOf mid ∧ pushes moveOf mid = pops moveOf mid ∧
        Stays moveOf tail ∧ tail ≠ [] := by
  constructor
  · rintro ⟨third, rest, h⟩
    obtain ⟨before, mid, tail, rfl, hbefore, hmid, heq, htail⟩ :=
      (walk_eq_iff ha hb).mp (walk_of_resolve h)
    refine ⟨before, mid, tail, rfl, hbefore, hmid, heq, htail, ?_⟩
    -- with nothing behind the two places the path has no third component
    rintro rfl
    have hends : endsWithDots (before ++ a :: (mid ++ [b])) = false := by
      rw [← List.cons_append, ← List.append_assoc, endsWithDots_concat]
      simp [hb]
    rw [resolve, hends, walk_eq_append ha hb hbefore hmid heq htail] at h
    simp [walk] at h
  · rintro ⟨before, mid, tail, rfl, hbefore, hmid, heq, htail, hne⟩
    obtain ⟨front, last, rfl⟩ := (List.eq_nil_or_concat' tail).resolve_left hne
    have hends : endsWithDots (before ++ a :: (mid ++ b :: (front ++ [last]))) =
        decide (moveOf last ≠ .push) := by
      rw [← List.cons_append (a := b), ← List.append_assoc mid, ← List.cons_append (a := a),
        ← List.append_assoc before, endsWithDots_concat]
    rw [resolve, hends, walk_eq_append ha hb hbefore hmid heq htail, walk_concat]
    -- behind the two places there is the last component, or the empty one that closes the path
    have hthird : (if decide (moveOf last ≠ .push) = true then [[]] else []) ++
        step moveOf (walk moveOf front) last ≠ [] := by
      by_cases hlast : moveOf last = .push
      · simp [hlast, step]
      · simp [hlast]
    obtain ⟨third, rest, hcons⟩ :=
      List.exists_cons_of_ne_nil (List.reverse_ne_nil_iff.mpr hthird)
    exact ⟨third, rest, by rw [← List.append_assoc, List.reverse_append, hcons]; rfl⟩

/-! ## Parsing -/

/-- A URL, as far as a request goes there: the path is not percent-encoded yet, which changes no
component without special characters. -/
structure Parsed where
  scheme : List Char
  authority : List Char
  path : List (List Char)

def isC0OrSpace (c : Char) : Bool := decide (c.toNat ≤ 0x20)

def isTabOrNewline (c : Char) : Bool := decide (c ∈ ['\t', '\n', '\r'])

/-- What the parser reads of a text. -/
def clean (url : List Char) : List Char :=
  ((url.dropWhile isC0OrSpace).rdropWhile isC0OrSpace).filter fun c => !isTabOrNewline c

/-- The query or the fragment starts. -/
def endsPath (c : Char) : Bool := decide (c ∈ ['?', '#'])

def isSlash (c : Char) : Bool := decide (c ∈ ['/', '\\'])

def pathComponents (text : List Char) : List (List Char) :=
  ((text.takeWhile fun c => !endsPath c).drop 1).splitOnP isSlash

/-- Parse an absolute URL with `://`, of a scheme like `https` whose paths may have backslashes. -/
def parse (url : List Char) : Parsed :=
  let url := clean url
  let scheme := url.takeWhile fun c => decide (c ≠ ':')
  let rest := url.drop (scheme.length + 3)
  let authority := rest.takeWhile fun c => !(endsPath c || isSlash c)
  { scheme := scheme
    authority := authority
    path := resolve (pathComponents (rest.drop authority.length)) }

structure Origin where
  scheme : List Char
  authority : List Char
  scheme_clean : ∀ c ∈ scheme, c ≠ ':' ∧ isC0OrSpace c = false
  authority_clean : ∀ c ∈ authority,
    endsPath c = false ∧ isSlash c = false ∧ isC0OrSpace c = false

def Origin.text (origin : Origin) : List Char :=
  origin.scheme ++ ([':', '/', '/'] ++ origin.authority)

theorem rdropWhile_append_cons {p : Char → Bool} {c : Char} (hc : p c = false)
    (front back : List Char) :
    (front ++ c :: back).rdropWhile p = front ++ c :: back.rdropWhile p := by
  induction back using List.reverseRecOn with
  | nil => rw [List.rdropWhile_concat_neg _ _ _ (by simp [hc]), List.rdropWhile_nil]
  | append_singleton back last ih =>
    rw [← List.cons_append, ← List.append_assoc, List.rdropWhile_concat, List.rdropWhile_concat]
    split
    · exact ih
    · simp

theorem clean_slash (text : List Char) :
    clean ('/' :: text) =
      '/' :: (text.rdropWhile isC0OrSpace).filter fun c => !isTabOrNewline c := by
  have hslash : isC0OrSpace '/' = false := by decide
  rw [clean, List.dropWhile_cons_of_neg (by simp [hslash])]
  exact congrArg _ (rdropWhile_append_cons hslash [] text)

theorem clean_append {origin : List Char} (text : List Char)
    (horigin : ∀ c ∈ origin, isC0OrSpace c = false) (hne : origin ≠ []) :
    clean (origin ++ '/' :: text) = origin ++ clean ('/' :: text) := by
  have hdrop : (origin ++ '/' :: text).dropWhile isC0OrSpace = origin ++ '/' :: text := by
    obtain ⟨c, rest, rfl⟩ := List.exists_cons_of_ne_nil hne
    exact List.dropWhile_cons_of_neg (by simp [horigin c])
  -- a tab and a newline are C0 controls
  have hfilter : origin.filter (fun c => !isTabOrNewline c) = origin := by
    refine List.filter_eq_self.mpr fun c hc => ?_
    have hc0 := horigin c hc
    by_contra htab
    simp only [isTabOrNewline, List.mem_cons, List.not_mem_nil, or_false, Bool.not_eq_true',
      decide_eq_false_iff_not, not_not] at htab
    rcases htab with rfl | rfl | rfl <;> exact absurd hc0 (by decide)
  rw [clean, hdrop, rdropWhile_append_cons (by decide), List.filter_append, hfilter, clean_slash]
  rfl

theorem parse_append (origin : Origin) (text : List Char) :
    parse (origin.text ++ '/' :: text) =
      ⟨origin.scheme, origin.authority, resolve (pathComponents (clean ('/' :: text)))⟩ := by
  have hclean : clean (origin.text ++ '/' :: text) = origin.text ++ clean ('/' :: text) := by
    refine clean_append text (fun c hc => ?_) (by simp [Origin.text])
    rcases List.mem_append.mp hc with hc | hc
    · exact (origin.scheme_clean c hc).2
    rcases List.mem_append.mp hc with hc | hc
    · simp only [List.mem_cons, List.not_mem_nil, or_false] at hc
      rcases hc with rfl | rfl | rfl <;> decide
    · exact (origin.authority_clean c hc).2.2
  obtain ⟨rest, hrest⟩ : ∃ rest, clean ('/' :: text) = '/' :: rest := ⟨_, clean_slash text⟩
  have hscheme : (origin.text ++ '/' :: rest).takeWhile (fun c => decide (c ≠ ':')) =
      origin.scheme := by
    rw [Origin.text, List.append_assoc,
      List.takeWhile_append_of_pos fun c hc => by simpa using (origin.scheme_clean c hc).1]
    exact List.append_nil _
  have hdrop : (origin.text ++ '/' :: rest).drop (origin.scheme.length + 3) =
      origin.authority ++ '/' :: rest := by
    rw [Origin.text, List.append_assoc, ← List.drop_drop, List.drop_left]
    rfl
  have hauthority : (origin.authority ++ '/' :: rest).takeWhile
      (fun c => !(endsPath c || isSlash c)) = origin.authority := by
    rw [List.takeWhile_append_of_pos fun c hc => by
      simp [(origin.authority_clean c hc).1, (origin.authority_clean c hc).2.1]]
    exact List.append_nil _
  rw [parse, hclean, hrest]
  simp only [hscheme, hdrop, hauthority, List.drop_left]

end Url
