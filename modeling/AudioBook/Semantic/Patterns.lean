import AudioBook.Director.Chunker

/-!
# Patterns

The part of Python's `re` that the semantic analyzer uses. A pattern is tried at a position of a
text; its matches are listed in the order in which the backtracking matcher tries them, so the
match is the first one of the list.
-/

namespace AudioBook

structure Cursor where
  before : Option Char := none
  rest : Text

/-- A match of a pattern: where it ends, and what its group captured. -/
structure PatternMatch where
  cursor : Cursor
  captured : Text := []

inductive Pattern
  | chars (p : Char → Bool)
  /-- `\b`; the class says which characters are word characters. -/
  | boundary (isWord : Char → Bool)
  | seq (p q : Pattern)
  | alt (p q : Pattern)
  | upTo (n : ℕ) (p : Pattern)
  | star (p : Pattern)
  | group (p : Pattern)

/-- Go over one character. -/
def Cursor.next (c : Cursor) : Option (Char × Cursor) :=
  match c.rest with
  | [] => none
  | x :: rest => some (x, ⟨some x, rest⟩)

/-- The text between two positions. -/
def Cursor.textTo (c c' : Cursor) : Text := c.rest.take (c.rest.length - c'.rest.length)

/-- Match `step` up to `n` times, as often as possible first; every time it has to consume. -/
def repeatMatch (step : PatternMatch → List PatternMatch) : ℕ → PatternMatch → List PatternMatch
  | 0, m => [m]
  | n + 1, m =>
      ((step m).filter fun m' => decide (m'.cursor.rest.length < m.cursor.rest.length)).flatMap
        (repeatMatch step n) ++ [m]

namespace Pattern

/-- The matches of a pattern, each of which goes on from a match `m` of what stands before it. -/
def matchesFrom : Pattern → PatternMatch → List PatternMatch
  | chars p, m =>
      match m.cursor.next with
      | some (x, cursor) => if p x then [{ m with cursor }] else []
      | none => []
  | boundary isWord, m =>
      if m.cursor.before.any isWord ≠ m.cursor.rest.head?.any isWord then [m] else []
  | seq p q, m => (p.matchesFrom m).flatMap q.matchesFrom
  | alt p q, m => p.matchesFrom m ++ q.matchesFrom m
  | upTo n p, m => repeatMatch p.matchesFrom n m
  | star p, m => repeatMatch p.matchesFrom m.cursor.rest.length m
  | group p, m =>
      (p.matchesFrom m).map fun m' => { m' with captured := m.cursor.textTo m'.cursor }

/-- `p+`. -/
def plus (p : Pattern) : Pattern := seq p (star p)

def seqAll : List Pattern → Pattern
  | [] => upTo 0 (chars fun _ => true)
  | [p] => p
  | p :: ps => seq p (seqAll ps)

def literal (text : Text) : Pattern := seqAll (text.map fun c => chars (decide <| · = c))

/-- `p|q|...` -/
def altAll (p : Pattern) : List Pattern → Pattern
  | [] => p
  | q :: ps => alt p (altAll q ps)

def matchAt (p : Pattern) (cursor : Cursor) : Option PatternMatch :=
  (p.matchesFrom { cursor }).head?

/-- `finditer`, the groups of the matches; the scan goes over `skip` characters of a match that it
already found. Patterns here match at least one character. -/
def findGroups (p : Pattern) (before : Option Char) (skip : ℕ) : Text → List Text
  | [] => []
  | x :: text =>
      match skip with
      | skip + 1 => findGroups p (some x) skip text
      | 0 =>
          match p.matchAt ⟨before, x :: text⟩ with
          | some m => m.captured :: findGroups p (some x) (text.length - m.cursor.rest.length) text
          | none => findGroups p (some x) 0 text

/-- `finditer`, the groups of the matches. -/
def finditer (p : Pattern) (text : Text) : List Text := p.findGroups none 0 text

/-- `search`, and the group of the match. -/
def searchGroup (p : Pattern) (before : Option Char) : Text → Option Text
  | [] => (p.matchAt ⟨before, []⟩).map PatternMatch.captured
  | x :: text =>
      match p.matchAt ⟨before, x :: text⟩ with
      | some m => some m.captured
      | none => searchGroup p (some x) text

/-- `search`, and whether there is a match. -/
def search (p : Pattern) (before : Option Char) : Text → Bool
  | [] => (p.matchAt ⟨before, []⟩).isSome
  | x :: text => (p.matchAt ⟨before, x :: text⟩).isSome || search p (some x) text

end Pattern

end AudioBook
