import AudioBook.Ingestion.NormalForm

/-!
# Hyphenated Line Breaks

`dehyphenate` replaces the matches of one pattern from left to right. A match takes the whole word
behind the break, so a break that needs this word in front of it is not found: where a line consists
of one broken word, only every other break around it is joined.

Main results:

- `dehyphenate_intercalate`: `dehyphenate` works line by line.
- `allJoined_iff`: every hyphenated break is joined exactly if no line is chained.
-/

namespace AudioBook.LineBreaks

open NormalForm

/-- What Unicode promises of letters: whitespace and hyphens are none. -/
structure LetterLaws (u : UnicodeData) : Prop where
  hyphen : u.isLetter '-' = false
  whitespace : ∀ c, isWhitespace c = true → u.isLetter c = false

theorem LetterLaws.isWhitespace {u : UnicodeData} {c : Char} (hu : LetterLaws u)
    (hc : u.isLetter c) : isWhitespace c = false := by
  refine Bool.eq_false_iff.mpr fun h => ?_
  rw [hu.whitespace c h] at hc
  cases hc

theorem LetterLaws.ne_hyphen {u : UnicodeData} {c : Char} (hu : LetterLaws u)
    (hc : u.isLetter c) : c ≠ '-' := by
  rintro rfl
  rw [hu.hyphen] at hc
  cases hc

/-! ## Lines -/

section lines

variable (u : UnicodeData)

def endsBroken (line : Text) : Bool :=
  match line.reverse with
  | '-' :: before :: _ => u.isLetter before
  | _ => false

def startsWord : Text → Bool
  | after :: _ => u.isLetter after
  | [] => false

/-- The line is one word that is broken off. -/
def isFragment (line : Text) : Bool := endsBroken u line && line.dropLast.all u.isLetter

/-- `looksLikeContinuation`: the word goes on in lower case. -/
def looksLikeContinuation (line rest : Text) : Bool :=
  line.dropLast.getLast?.any isLowercaseAscii && rest.head?.any isLowercaseAscii

/-- A line and the text behind it: a hyphenated break is joined by the rule of `dehyphenate`, and
any other break is a space. -/
def joinAt (line rest : Text) : Text :=
  if endsBroken u line && startsWord u rest then
    if looksLikeContinuation line rest then line.dropLast ++ rest else line ++ rest
  else line ++ ' ' :: rest

def joinEvery : List Text → Text
  | [] => []
  | [line] => line
  | line :: next :: lines => joinAt u line (joinEvery (next :: lines))

/-- What `dehyphenate` does with lines; `taken` says that a match before took the first word. -/
def dehyphenateLines : Bool → List Text → Text
  | _, [] => []
  | _, [line] => line
  | taken, line :: next :: lines =>
      if taken && isFragment u line && startsWord u next then
        line ++ ' ' :: dehyphenateLines false (next :: lines)
      else joinAt u line
        (dehyphenateLines (endsBroken u line && startsWord u next) (next :: lines))

/-- The first line is a fragment that the second one goes on with. -/
def startsChain : List Text → Bool
  | line :: next :: _ => isFragment u line && startsWord u next
  | _ => false

/-- Two hyphenated breaks share a word: a line that is one fragment stands between a line that is
broken off and one that goes on. -/
def Chained (lines : List Text) : Prop :=
  ∃ line fragment next, [line, fragment, next] <:+: lines ∧
    endsBroken u line ∧ isFragment u fragment ∧ startsWord u next

end lines

variable {u : UnicodeData} {line next rest : Text} {lines : List Text} {taken : Bool}

theorem dropLast_broken (word : Text) (before : Char) :
    (word ++ [before, '-']).dropLast = word ++ [before] := by
  rw [show word ++ [before, '-'] = (word ++ [before]) ++ ['-'] by simp, List.dropLast_concat]

theorem endsBroken_iff :
    endsBroken u line ↔ ∃ word before, line = word ++ [before, '-'] ∧ u.isLetter before := by
  unfold endsBroken
  constructor
  · intro h
    split at h
    case h_1 before word hreverse =>
      refine ⟨word.reverse, before, ?_, h⟩
      rw [← List.reverse_reverse line, hreverse]
      simp
    case h_2 => cases h
  · rintro ⟨word, before, rfl, h⟩
    rw [List.reverse_append]
    exact h

theorem startsWord_iff : startsWord u line ↔ ∃ after word, line = after :: word ∧ u.isLetter after := by
  cases line with
  | nil => simp [startsWord]
  | cons after word => simp [startsWord]

theorem isFragment_iff : isFragment u line ↔
    ∃ word before, line = word ++ [before, '-'] ∧ u.isLetter before ∧ word.all u.isLetter := by
  rw [isFragment, Bool.and_eq_true, endsBroken_iff]
  constructor
  · rintro ⟨⟨word, before, rfl, hbefore⟩, hall⟩
    refine ⟨word, before, rfl, hbefore, ?_⟩
    rw [dropLast_broken, List.all_append, Bool.and_eq_true] at hall
    exact hall.1
  · rintro ⟨word, before, rfl, hbefore, hall⟩
    refine ⟨⟨word, before, rfl, hbefore⟩, ?_⟩
    rw [dropLast_broken, List.all_append, hall, List.all_cons, hbefore]
    rfl

theorem startsWord_of_isFragment (h : isFragment u line) : startsWord u line := by
  obtain ⟨word, before, rfl, hbefore, hall⟩ := isFragment_iff.mp h
  cases word with
  | nil => exact hbefore
  | cons c word => exact List.all_eq_true.mp hall c List.mem_cons_self

theorem startsWord_of_startsChain (h : startsChain u (next :: lines)) : startsWord u next := by
  cases lines with
  | nil => cases h
  | cons after lines =>
    obtain ⟨hfragment, -⟩ := Bool.and_eq_true_iff.mp h
    exact startsWord_of_isFragment hfragment

theorem chained_cons :
    Chained u (line :: lines) ↔ (endsBroken u line && startsChain u lines) ∨ Chained u lines := by
  have hhead : (endsBroken u line && startsChain u lines) = true ↔
      ∃ a fragment b, [a, fragment, b] <+: line :: lines ∧
        endsBroken u a ∧ isFragment u fragment ∧ startsWord u b := by
    constructor
    · intro h
      obtain ⟨hends, hchain⟩ := Bool.and_eq_true_iff.mp h
      match lines, hchain with
      | fragment :: b :: lines, hchain =>
        obtain ⟨hfragment, hstarts⟩ := Bool.and_eq_true_iff.mp hchain
        exact ⟨line, fragment, b, ⟨lines, rfl⟩, hends, hfragment, hstarts⟩
    · rintro ⟨a, fragment, b, ⟨tail, htail⟩, hends, hfragment, hstarts⟩
      cases htail
      exact Bool.and_eq_true_iff.mpr ⟨hends, Bool.and_eq_true_iff.mpr ⟨hfragment, hstarts⟩⟩
  rw [hhead]
  constructor
  · rintro ⟨a, fragment, b, hinfix, h⟩
    rcases List.infix_cons_iff.mp hinfix with hprefix | hinfix
    · exact .inl ⟨a, fragment, b, hprefix, h⟩
    · exact .inr ⟨a, fragment, b, hinfix, h⟩
  · rintro (⟨a, fragment, b, hprefix, h⟩ | ⟨a, fragment, b, hinfix, h⟩)
    · exact ⟨a, fragment, b, hprefix.isInfix, h⟩
    · exact ⟨a, fragment, b, List.infix_cons_iff.mpr (.inr hinfix), h⟩

/-! ## Missed Breaks -/

theorem joinAt_eq_append (u : UnicodeData) (line : Text) (first : Option Char) :
    ∃ start, ∀ rest : Text, rest.head? = first → joinAt u line rest = start ++ rest := by
  have hstarts : ∀ rest : Text, startsWord u rest = rest.head?.any u.isLetter := by
    intro rest
    cases rest <;> rfl
  refine ⟨if endsBroken u line && first.any u.isLetter then
      if line.dropLast.getLast?.any isLowercaseAscii && first.any isLowercaseAscii then line.dropLast
      else line
    else line ++ [' '], fun rest hrest => ?_⟩
  rw [joinAt, hstarts, looksLikeContinuation, hrest]
  split_ifs <;> simp

/-- In the first text a hyphenated break is still there, as a space, and in the second one it is
joined; up to there they are the same. -/
def Missed (u : UnicodeData) (text joined : Text) : Prop :=
  ∃ start before after rest rest', u.isLetter before ∧ u.isLetter after ∧
    text = start ++ before :: '-' :: ' ' :: after :: rest ∧
    (joined = start ++ before :: after :: rest' ∨ joined = start ++ before :: '-' :: after :: rest')

theorem Missed.append {text joined : Text} (h : Missed u text joined) (start : Text) :
    Missed u (start ++ text) (start ++ joined) := by
  obtain ⟨s, before, after, rest, rest', hbefore, hafter, rfl, h⟩ := h
  refine ⟨start ++ s, before, after, rest, rest', hbefore, hafter, by simp, ?_⟩
  rcases h with rfl | rfl
  · exact .inl (by simp)
  · exact .inr (by simp)

theorem Missed.head?_eq {text joined : Text} (h : Missed u text joined) :
    text.head? = joined.head? := by
  obtain ⟨s, before, after, rest, rest', -, -, rfl, h⟩ := h
  rcases h with rfl | rfl <;> cases s <;> rfl

theorem Missed.joinAt {text joined : Text} (h : Missed u text joined) (line : Text) :
    Missed u (joinAt u line text) (joinAt u line joined) := by
  obtain ⟨start, hstart⟩ := joinAt_eq_append u line joined.head?
  rw [hstart text h.head?_eq, hstart joined rfl]
  exact h.append start

theorem joinAt_broken {before after : Char} (hbefore : u.isLetter before) (hafter : u.isLetter after)
    (word rest : Text) : joinAt u (word ++ [before, '-']) (after :: rest) = word ++ before ::
      if isLowercaseAscii before && isLowercaseAscii after then after :: rest
      else '-' :: after :: rest := by
  have hbroken : (endsBroken u (word ++ [before, '-']) && startsWord u (after :: rest)) = true :=
    Bool.and_eq_true_iff.mpr ⟨endsBroken_iff.mpr ⟨word, before, rfl, hbefore⟩, hafter⟩
  rw [joinAt, if_pos hbroken, looksLikeContinuation, dropLast_broken, List.getLast?_concat,
    Option.any_some, List.head?_cons, Option.any_some]
  split <;> simp

theorem missed_joinAt {text joined : Text} (hends : endsBroken u line) (hstarts : startsWord u text)
    (hhead : joined.head? = text.head?) :
    Missed u (line ++ ' ' :: text) (joinAt u line joined) := by
  obtain ⟨word, before, rfl, hbefore⟩ := endsBroken_iff.mp hends
  obtain ⟨after, rest, rfl, hafter⟩ := startsWord_iff.mp hstarts
  obtain ⟨rest', rfl⟩ := List.head?_eq_some_iff.mp hhead
  refine ⟨word, before, after, rest, rest', hbefore, hafter, by simp, ?_⟩
  rw [joinAt_broken hbefore hafter]
  split
  · exact .inl rfl
  · exact .inr rfl

theorem head?_joinAt (hstarts : startsWord u line) : (joinAt u line rest).head? = line.head? := by
  obtain ⟨after, word, rfl, -⟩ := startsWord_iff.mp hstarts
  unfold LineBreaks.joinAt
  split
  case isTrue h =>
    obtain ⟨word', before, hline, -⟩ := endsBroken_iff.mp (Bool.and_eq_true_iff.mp h).1
    split
    -- the letter before the hyphen stays
    · rw [hline, dropLast_broken]
      cases word' <;> rfl
    · rfl
  · rfl

theorem head?_dehyphenateLines (hstarts : startsWord u next) :
    (dehyphenateLines u taken (next :: lines)).head? = next.head? := by
  obtain ⟨after, word, hnext, -⟩ := startsWord_iff.mp hstarts
  cases lines with
  | nil => rfl
  | cons after lines =>
    rw [dehyphenateLines]
    split
    · rw [hnext]
      rfl
    · exact head?_joinAt hstarts

theorem head?_joinEvery (hstarts : startsWord u next) :
    (joinEvery u (next :: lines)).head? = next.head? := by
  cases lines with
  | nil => rfl
  | cons after lines => exact head?_joinAt hstarts

theorem dehyphenateLines_eq_joinEvery (htaken : (taken && startsChain u lines) = false)
    (hchained : ¬ Chained u lines) : dehyphenateLines u taken lines = joinEvery u lines := by
  fun_induction dehyphenateLines u taken lines with
  | case1 => rfl
  | case2 => rfl
  | case3 taken line next lines hmissed =>
    rw [Bool.and_assoc] at hmissed
    exact absurd hmissed (ne_true_of_eq_false htaken)
  | case4 taken line next lines hfound ih =>
    rw [chained_cons, not_or] at hchained
    rw [joinEvery, ih ?_ hchained.2]
    -- a chain that starts behind a break that was joined is one of the lines
    refine Bool.eq_false_iff.mpr fun h => hchained.1 ?_
    obtain ⟨hbreak, hchain⟩ := Bool.and_eq_true_iff.mp h
    exact Bool.and_eq_true_iff.mpr ⟨(Bool.and_eq_true_iff.mp hbreak).1, hchain⟩

theorem missed_of_chained (h : (taken && startsChain u lines) = true ∨ Chained u lines) :
    Missed u (dehyphenateLines u taken lines) (joinEvery u lines) := by
  fun_induction dehyphenateLines u taken lines with
  | case1 =>
    rcases h with h | ⟨a, b, c, hinfix, -⟩
    · simp [startsChain] at h
    · exact absurd hinfix.length_le (by simp)
  | case2 taken line =>
    rcases h with h | ⟨a, b, c, hinfix, -⟩
    · simp [startsChain] at h
    · exact absurd hinfix.length_le (by simp)
  | case3 taken line next lines hmissed =>
    obtain ⟨hfragment, hstarts⟩ := Bool.and_eq_true_iff.mp hmissed
    have hends : endsBroken u line :=
      (Bool.and_eq_true_iff.mp (Bool.and_eq_true_iff.mp hfragment).2).1
    obtain ⟨after, word, hnext, hafter⟩ := startsWord_iff.mp hstarts
    have hhead : (dehyphenateLines u false (next :: lines)).head? = next.head? :=
      head?_dehyphenateLines hstarts
    have htext : startsWord u (dehyphenateLines u false (next :: lines)) := by
      rw [hnext] at hhead
      obtain ⟨rest, hrest⟩ := List.head?_eq_some_iff.mp hhead
      rw [hnext, hrest]
      exact hafter
    exact missed_joinAt hends htext ((head?_joinEvery hstarts).trans hhead.symm)
  | case4 taken line next lines hfound ih =>
    rw [joinEvery]
    refine (ih ?_).joinAt line
    rw [chained_cons] at h
    rcases h with h | h | h
    · rw [startsChain, ← Bool.and_assoc] at h
      exact absurd h hfound
    -- the break before a chain is joined, and takes the word
    · obtain ⟨hends, hchain⟩ := Bool.and_eq_true_iff.mp h
      refine .inl (Bool.and_eq_true_iff.mpr ⟨Bool.and_eq_true_iff.mpr ⟨hends, ?_⟩, hchain⟩)
      exact startsWord_of_startsChain hchain
    · exact .inr h

/-! ## Line by Line -/

/-- What `dehyphenate` knows behind a character. -/
def dehyphenateStep (u : UnicodeData) (state : Option Char × Bool) (c : Char) :
    Option Char × Bool :=
  if u.isLetter c then (some c, state.2) else (none, false)

variable {last : Option Char} {inMatch : Bool} {text word : Text} {c before : Char}

theorem dehyphenateFrom_cons (h : last = none ∨ (c = '-' → text.head? ≠ some '\n')) :
    dehyphenateFrom u last inMatch (c :: text) =
      c :: dehyphenateFrom u (dehyphenateStep u (last, inMatch) c).1
        (dehyphenateStep u (last, inMatch) c).2 text := by
  have hno : ∀ before after text', last = some before → inMatch = false → c = '-' →
      text = '\n' :: after :: text' → False := by
    intro before after text' hlast _ hc htext
    rcases h with h | h
    · rw [h] at hlast
      cases hlast
    · exact h hc (by rw [htext, List.head?_cons])
  rw [dehyphenateFrom.eq_2 _ _ _ _ _ hno, dehyphenateStep]
  split <;> rfl

theorem dehyphenateFrom_append (hbreak : '\n' ∉ word)
    (hlast : word.getLast? = some '-' → text.head? ≠ some '\n') :
    dehyphenateFrom u last inMatch (word ++ text) =
      word ++ dehyphenateFrom u (word.foldl (dehyphenateStep u) (last, inMatch)).1
        (word.foldl (dehyphenateStep u) (last, inMatch)).2 text := by
  induction word generalizing last inMatch with
  | nil => rfl
  | cons c word ih =>
    have hword : '\n' ∉ word := fun hmem => hbreak (List.mem_cons_of_mem c hmem)
    rw [List.cons_append, dehyphenateFrom_cons (.inr fun hhyphen => ?_), List.foldl_cons, ih hword ?_]
    · rfl
    · intro hend
      refine hlast ?_
      rw [List.getLast?_cons, hend]
      rfl
    · cases word with
      | nil => exact hlast (by rw [hhyphen]; rfl)
      | cons d word =>
        rintro ⟨⟩
        exact hword List.mem_cons_self

theorem foldl_dehyphenateStep (word : Text) (state : Option Char × Bool) (c : Char) :
    (word ++ [c]).foldl (dehyphenateStep u) state =
      (if u.isLetter c then some c else none, state.2 && (word ++ [c]).all u.isLetter) := by
  have hsnd : ∀ (word : Text) (state : Option Char × Bool),
      (word.foldl (dehyphenateStep u) state).2 = (state.2 && word.all u.isLetter) := by
    intro word
    induction word with
    | nil => simp
    | cons d word ih =>
      intro state
      rw [List.foldl_cons, ih, dehyphenateStep, List.all_cons]
      split
      case isTrue hd => rw [hd, Bool.true_and]
      case isFalse hd => simp [hd]
  rw [← hsnd, List.foldl_append]
  refine Prod.ext ?_ rfl
  rw [List.foldl_cons, List.foldl_nil, dehyphenateStep]
  split <;> rfl

theorem dehyphenateFrom_break (hu : LetterLaws u) (h : last = none ∨ inMatch = true) :
    dehyphenateFrom u last inMatch ('-' :: '\n' :: text) =
      '-' :: '\n' :: dehyphenateFrom u none false text := by
  have hletter : u.isLetter '\n' = false := hu.whitespace '\n' (by decide)
  rw [dehyphenateFrom.eq_2 _ _ _ _ _ ?_, if_neg (by simp [hu.hyphen]),
    dehyphenateFrom_cons (.inr fun h => absurd h (by decide)), dehyphenateStep,
    if_neg (by simp [hletter])]
  intro before after text' hlast hmatch
  rcases h with h | h
  · rw [h] at hlast
    cases hlast
  · rw [h] at hmatch
    cases hmatch

/-- `dehyphenate`, where `taken` says that a match took the first character. -/
def dehyphenateTaken (u : UnicodeData) : Bool → Text → Text
  | true, after :: text => after :: dehyphenateFrom u none true text
  | _, text => dehyphenateFrom u none false text

theorem dehyphenateTaken_word (text : Text) (hletter : u.isLetter before) (hbreak : '\n' ∉ word ++ [before])
    (hhyphen : before ≠ '-') (htaken : taken → startsWord u (word ++ [before])) :
    ∃ last, dehyphenateTaken u taken (word ++ before :: text) = word ++ before ::
        dehyphenateFrom u last (taken && (word ++ [before]).all u.isLetter) text ∧
      (last = some before ∨ last = none ∧ (taken && (word ++ [before]).all u.isLetter) = true) := by
  have hrun : ∀ (word : Text) (inMatch : Bool), '\n' ∉ word ++ [before] →
      dehyphenateFrom u none inMatch ((word ++ [before]) ++ text) = (word ++ [before]) ++
        dehyphenateFrom u (some before) (inMatch && (word ++ [before]).all u.isLetter) text := by
    intro word inMatch hbreak
    rw [dehyphenateFrom_append hbreak fun h => absurd (by simpa using h) hhyphen,
      foldl_dehyphenateStep, if_pos hletter]
  cases taken with
  | false =>
    refine ⟨some before, ?_, .inl rfl⟩
    have h := hrun word false hbreak
    simp only [List.append_assoc, List.singleton_append] at h
    exact h
  | true =>
    cases word with
    | nil => exact ⟨none, by simp [dehyphenateTaken, hletter], .inr ⟨rfl, by simp [hletter]⟩⟩
    | cons after word =>
      have hafter : u.isLetter after = true := htaken rfl
      refine ⟨some before, ?_, .inl rfl⟩
      have h := hrun word true fun hmem => hbreak (List.mem_cons_of_mem after hmem)
      simp only [List.append_assoc, List.singleton_append] at h
      rw [List.cons_append, dehyphenateTaken, h]
      simp only [List.cons_append, List.all_cons, hafter, Bool.true_and]

theorem dehyphenateFrom_line (hu : LetterLaws u) (hbreak : '\n' ∉ line)
    (hends : endsBroken u line = false) :
    dehyphenateFrom u none inMatch (line ++ '\n' :: rest) =
      line ++ '\n' :: dehyphenateFrom u none false rest := by
  have hnewline : ∀ last inMatch, dehyphenateFrom u last inMatch ('\n' :: rest) =
      '\n' :: dehyphenateFrom u none false rest := by
    intro last inMatch
    rw [dehyphenateFrom_cons (.inr fun h => absurd h (by decide)), dehyphenateStep,
      if_neg (by simp [hu.whitespace '\n' (by decide)])]
  rcases List.eq_nil_or_concat' line with rfl | ⟨word, c, rfl⟩
  · exact hnewline none inMatch
  by_cases hc : c = '-'
  · -- the character before the hyphen is no letter
    have hlast : (word.foldl (dehyphenateStep u) (none, inMatch)).1 = none := by
      rcases List.eq_nil_or_concat' word with rfl | ⟨word, d, rfl⟩
      · rfl
      · have hd : ¬ u.isLetter d := by
          intro hd
          rw [endsBroken_iff.mpr ⟨word, d, by simp [hc], hd⟩] at hends
          cases hends
        rw [foldl_dehyphenateStep, if_neg hd]
    rw [List.append_assoc, List.singleton_append,
      dehyphenateFrom_append (fun hmem => hbreak (by simp [hmem])) fun _ => by simp [hc],
      hlast, hc, dehyphenateFrom_break hu (.inl rfl)]
    simp
  · rw [dehyphenateFrom_append hbreak fun h => absurd (by simpa using h) hc, hnewline]

def spaceOut (text : Text) : Text := text.map fun c => if c = '\n' then ' ' else c

@[simp] theorem spaceOut_append (text text' : Text) :
    spaceOut (text ++ text') = spaceOut text ++ spaceOut text' := List.map_append

@[simp] theorem spaceOut_newline_cons (text : Text) :
    spaceOut ('\n' :: text) = ' ' :: spaceOut text := rfl

theorem spaceOut_eq_self (h : '\n' ∉ text) : spaceOut text = text := by
  refine (List.map_congr_left fun c hc => ?_).trans (List.map_id text)
  exact if_neg fun heq : c = '\n' => h (heq ▸ hc)

theorem startsWord_spaceOut (hu : LetterLaws u) :
    startsWord u (spaceOut (dehyphenateTaken u taken text)) = startsWord u text := by
  have hhead : ∀ (c : Char) (text : Text),
      startsWord u (spaceOut (c :: text)) = u.isLetter c := by
    intro c text
    by_cases hc : c = '\n'
    · rw [hc, hu.whitespace '\n' (by decide)]
      exact hu.whitespace ' ' (by decide)
    · rw [spaceOut, List.map_cons, if_neg hc]
      rfl
  cases text with
  | nil => cases taken <;> rfl
  | cons c text =>
    cases taken with
    | false =>
      change startsWord u (spaceOut (dehyphenateFrom u none false (c :: text))) = _
      rw [dehyphenateFrom_cons (.inl rfl)]
      exact hhead c _
    | true => exact hhead c _

theorem head?_spaceOut (taken : Bool) (hu : LetterLaws u) (hstarts : startsWord u text) :
    (spaceOut (dehyphenateTaken u taken text)).head? = text.head? := by
  obtain ⟨after, word, rfl, hafter⟩ := startsWord_iff.mp hstarts
  have hne : after ≠ '\n' := by
    rintro rfl
    exact absurd (hu.isWhitespace hafter) (by decide)
  cases taken with
  | false =>
    change (spaceOut (dehyphenateFrom u none false (after :: word))).head? = _
    rw [dehyphenateFrom_cons (.inl rfl), spaceOut, List.map_cons, if_neg hne]
    rfl
  | true =>
    rw [dehyphenateTaken, spaceOut, List.map_cons, if_neg hne]
    rfl

theorem dehyphenateTaken_false (text : Text) :
    dehyphenateTaken u false text = dehyphenateFrom u none false text := rfl

theorem dehyphenateTaken_line (hu : LetterLaws u) (hbreak : '\n' ∉ line)
    (htaken : taken → startsWord u line) (hends : endsBroken u line = false) :
    dehyphenateTaken u taken (line ++ '\n' :: rest) =
      line ++ '\n' :: dehyphenateTaken u false rest := by
  cases taken with
  | false => exact dehyphenateFrom_line hu hbreak hends
  | true =>
    obtain ⟨after, word, rfl, hafter⟩ := startsWord_iff.mp (htaken rfl)
    have hword : endsBroken u word = false := by
      refine Bool.eq_false_iff.mpr fun h => ?_
      obtain ⟨start, before, rfl, hbefore⟩ := endsBroken_iff.mp h
      have hline := endsBroken_iff.mpr ⟨after :: start, before, rfl, hbefore⟩
      rw [List.cons_append, hends] at hline
      cases hline
    rw [List.cons_append, dehyphenateTaken,
      dehyphenateFrom_line hu (fun hmem => hbreak (List.mem_cons_of_mem after hmem)) hword]
    rfl

theorem dehyphenateFrom_match (hu : LetterLaws u) (before : Char) (rest : Text) :
    dehyphenateFrom u (some before) false ('-' :: '\n' :: rest) =
      if startsWord u rest then
        (if isLowercaseAscii before && rest.head?.any isLowercaseAscii then [] else ['-']) ++
          dehyphenateTaken u true rest
      else '-' :: '\n' :: dehyphenateTaken u false rest := by
  match rest with
  | [] =>
    rw [dehyphenateFrom.eq_2 _ _ _ _ _ (fun before after text' _ _ _ h => by cases h),
      if_neg (by simp [hu.hyphen]), dehyphenateFrom_cons (.inl rfl), dehyphenateStep,
      if_neg (by simp [hu.whitespace '\n' (by decide)])]
    rfl
  | after :: rest =>
    rw [dehyphenateFrom]
    by_cases hafter : u.isLetter after
    · rw [if_pos hafter, if_pos (show startsWord u (after :: rest) from hafter), dehyphenateTaken]
      rw [List.head?_cons, Option.any_some]
      by_cases hlower : (isLowercaseAscii before && isLowercaseAscii after) = true
      · rw [if_pos hlower, if_pos hlower]
        rfl
      · rw [if_neg hlower, if_neg hlower]
        rfl
    · rw [if_neg hafter, if_neg (show ¬ startsWord u (after :: rest) from hafter)]
      rfl

theorem dehyphenateTaken_broken (hu : LetterLaws u) (hbreak : '\n' ∉ line)
    (htaken : taken → startsWord u line) (hends : endsBroken u line) :
    dehyphenateTaken u taken (line ++ '\n' :: rest) =
      if (!(taken && isFragment u line) && startsWord u rest) = true then
        (if looksLikeContinuation line rest then line.dropLast else line) ++
          dehyphenateTaken u true rest
      else line ++ '\n' :: dehyphenateTaken u false rest := by
  obtain ⟨word, before, rfl, hbefore⟩ := endsBroken_iff.mp hends
  have hhyphen : before ≠ '-' := hu.ne_hyphen hbefore
  have hstarts : taken → startsWord u (word ++ [before]) := by
    intro h
    obtain ⟨after, word', hline, hafter⟩ := startsWord_iff.mp (htaken h)
    cases word with
    | nil => exact hbefore
    | cons c word =>
      cases hline
      exact hafter
  have hword : '\n' ∉ word ++ [before] := by
    intro hmem
    rw [show word ++ [before, '-'] = (word ++ [before]) ++ ['-'] by simp] at hbreak
    exact hbreak (List.mem_append_left _ hmem)
  have hfragment : isFragment u (word ++ [before, '-']) = (word ++ [before]).all u.isLetter := by
    rw [isFragment, hends, dropLast_broken, Bool.true_and]
  obtain ⟨last, hrun, hlast⟩ :=
    dehyphenateTaken_word ('-' :: '\n' :: rest) hbefore hword hhyphen hstarts
  rw [List.append_assoc, List.cons_append, List.cons_append, List.nil_append, hrun, hfragment,
    looksLikeContinuation, dropLast_broken, List.getLast?_concat, Option.any_some]
  cases hm : taken && (word ++ [before]).all u.isLetter with
  | true =>
    rw [dehyphenateFrom_break hu (.inr rfl), if_neg (by simp), dehyphenateTaken_false]
    simp
  | false =>
    rw [hm] at hlast
    obtain rfl := hlast.resolve_right fun h => by cases h.2
    rw [dehyphenateFrom_match hu, Bool.not_false, Bool.true_and]
    split
    · split <;> simp
    · simp

theorem dehyphenateTaken_intercalate (hu : LetterLaws u) (hbreak : ∀ line ∈ lines, '\n' ∉ line)
    (htaken : taken → ∀ line ∈ lines.head?, startsWord u line) :
    spaceOut (dehyphenateTaken u taken (['\n'].intercalate lines)) =
      dehyphenateLines u taken lines := by
  fun_induction dehyphenateLines u taken lines with
  | case1 taken => cases taken <;> rfl
  | case2 taken line =>
    have hline : '\n' ∉ line := hbreak line List.mem_cons_self
    rw [List.intercalate_singleton]
    cases taken with
    | false =>
      rw [dehyphenateTaken_false, dehyphenateFrom_eq_self hline]
      exact spaceOut_eq_self hline
    | true =>
      obtain ⟨after, word, rfl, -⟩ := startsWord_iff.mp (htaken rfl line rfl)
      have hword : '\n' ∉ word := fun hmem => hline (List.mem_cons_of_mem after hmem)
      rw [dehyphenateTaken, dehyphenateFrom_eq_self hword]
      exact spaceOut_eq_self hline
  | case3 taken line next lines hmissed ih =>
    have hline : '\n' ∉ line := hbreak line List.mem_cons_self
    obtain ⟨hfragment, hstarts⟩ := Bool.and_eq_true_iff.mp hmissed
    have hends : endsBroken u line := (Bool.and_eq_true_iff.mp (Bool.and_eq_true_iff.mp hfragment).2).1
    rw [List.intercalate_cons_cons, List.append_assoc, List.singleton_append,
      dehyphenateTaken_broken hu hline (fun h => htaken h line rfl) hends, if_neg (by simp [hfragment]),
      spaceOut_append, spaceOut_newline_cons, spaceOut_eq_self hline,
      ih (fun l hl => hbreak l (List.mem_cons_of_mem line hl)) fun h => by cases h]
  | case4 taken line next lines hfound ih =>
    have hline : '\n' ∉ line := hbreak line List.mem_cons_self
    have hlines : ∀ l ∈ next :: lines, '\n' ∉ l := fun l hl => hbreak l (List.mem_cons_of_mem line hl)
    have hrest := ih hlines fun h l hl => by
      cases hl
      exact (Bool.and_eq_true_iff.mp h).2
    have hstarts : startsWord u (['\n'].intercalate (next :: lines)) = startsWord u next := by
      cases lines with
      | nil => rw [List.intercalate_singleton]
      | cons after lines =>
        cases next with
        | nil => exact hu.whitespace '\n' (by decide)
        | cons c next => rw [List.intercalate_cons_cons_left]; rfl
    rw [List.intercalate_cons_cons, List.append_assoc, List.singleton_append, ← hrest, joinAt,
      startsWord_spaceOut hu, hstarts]
    cases hends : endsBroken u line with
    | false =>
      rw [dehyphenateTaken_line hu hline (fun h => htaken h line rfl) hends]
      simp [spaceOut_eq_self hline]
    | true =>
      rw [dehyphenateTaken_broken hu hline (fun h => htaken h line rfl) hends, hstarts]
      cases hnext : startsWord u next with
      | false => simp [spaceOut_eq_self hline]
      | true =>
        rw [hnext, Bool.and_true] at hfound
        have hhead := head?_spaceOut true hu (hstarts.trans hnext)
        have hlast : spaceOut line.dropLast = line.dropLast :=
          spaceOut_eq_self fun hmem => hline (List.dropLast_subset line hmem)
        rw [Bool.eq_false_iff.mpr hfound, Bool.not_false, Bool.and_self, if_pos rfl, if_pos rfl,
          looksLikeContinuation, looksLikeContinuation, hhead]
        split
        · rw [spaceOut_append, hlast]
        · rw [spaceOut_append, spaceOut_eq_self hline]

/-! ## One Line -/

/-- The rest of `normalizeText`: spaces are collapsed, and none are left at the ends. -/
def oneLine (text : Text) : Text := trim (collapseRuns (· = ' ') ' ' false text)

theorem collapseRuns_append_cons {kind : Char → Bool} {replacement : Char} {inRun : Bool}
    (hc : kind c = false) (s t : Text) :
    collapseRuns kind replacement inRun (s ++ c :: t) =
      collapseRuns kind replacement inRun s ++ c :: collapseRuns kind replacement false t := by
  induction s generalizing inRun with
  | nil => simp [collapseRuns, hc]
  | cons d s ih =>
    rw [List.cons_append, collapseRuns, collapseRuns, ih, ih]
    split_ifs <;> rfl

theorem rdropWhile_append_cons (hc : isWhitespace c = false) (s t : Text) :
    (s ++ c :: t).rdropWhile isWhitespace = s ++ c :: t.rdropWhile isWhitespace := by
  induction t using List.reverseRecOn with
  | nil => exact List.rdropWhile_concat_neg _ _ _ (by simp [hc])
  | append_singleton t d ih =>
    rw [show s ++ c :: (t ++ [d]) = (s ++ c :: t) ++ [d] by simp]
    by_cases hd : isWhitespace d = true
    · rw [List.rdropWhile_concat_pos _ _ _ hd, List.rdropWhile_concat_pos _ _ _ hd, ih]
    · rw [List.rdropWhile_concat_neg _ _ _ hd, List.rdropWhile_concat_neg _ _ _ hd]
      simp

theorem trim_append_cons (hc : isWhitespace c = false) (s t : Text) :
    trim (s ++ c :: t) = s.dropWhile isWhitespace ++ c :: t.rdropWhile isWhitespace := by
  rw [trim_eq, List.dropWhile_append]
  split
  case isTrue h =>
    rw [List.isEmpty_iff.mp h, List.dropWhile_cons_of_neg (by simp [hc])]
    exact rdropWhile_append_cons hc [] t
  case isFalse => exact rdropWhile_append_cons hc _ t

/-- The part of a line behind a word. -/
def lineEnd (text : Text) : Text :=
  (collapseRuns (· = ' ') ' ' false text).rdropWhile isWhitespace

theorem ne_space (hc : isWhitespace c = false) : c ≠ ' ' := by
  rintro rfl
  exact absurd hc (by decide)

theorem lineEnd_cons (hc : isWhitespace c = false) (text : Text) :
    lineEnd (c :: text) = c :: lineEnd text := by
  rw [lineEnd, collapseRuns, if_neg (by simp [ne_space hc])]
  exact rdropWhile_append_cons hc [] _

theorem lineEnd_space_cons (hc : isWhitespace c = false) (text : Text) :
    lineEnd (' ' :: c :: text) = ' ' :: c :: lineEnd text := by
  rw [lineEnd, collapseRuns, if_pos (by decide), if_neg (by decide), collapseRuns,
    if_neg (by simp [ne_space hc])]
  exact rdropWhile_append_cons hc [' '] _

theorem oneLine_append_cons (hc : isWhitespace c = false) (s t : Text) :
    oneLine (s ++ c :: t) =
      (collapseRuns (· = ' ') ' ' false s).dropWhile isWhitespace ++ c :: lineEnd t := by
  rw [oneLine, collapseRuns_append_cons (by simp [ne_space hc]), trim_append_cons hc]
  rfl

theorem Missed.oneLine_ne (hu : LetterLaws u) {text joined : Text} (h : Missed u text joined) :
    oneLine text ≠ oneLine joined := by
  obtain ⟨start, before, after, rest, rest', hbefore, hafter, rfl, h⟩ := h
  have hspace := hu.isWhitespace hafter
  rw [oneLine_append_cons (hu.isWhitespace hbefore), lineEnd_cons (by decide),
    lineEnd_space_cons hspace]
  intro heq
  rcases h with rfl | rfl <;>
    rw [oneLine_append_cons (hu.isWhitespace hbefore), List.append_cancel_left_eq] at heq
  · rw [lineEnd_cons hspace, List.cons.injEq, List.cons.injEq] at heq
    exact hu.ne_hyphen hafter heq.2.1.symm
  · rw [lineEnd_cons (by decide), lineEnd_cons hspace, List.cons.injEq, List.cons.injEq,
      List.cons.injEq] at heq
    exact ne_space hspace heq.2.2.1.symm

/-- The text in NFC without soft hyphens, with one space or line feed for every run of them. -/
def cleaned (u : UnicodeData) (text : Text) : Text :=
  collapseRuns (· = '\n') '\n' false (spaced (withoutSoftHyphens (u.nfc text)))

def cleanedLines (u : UnicodeData) (lines : List Text) : List Text :=
  (cleaned u (['\n'].intercalate lines)).splitOn '\n'

theorem newline_not_mem_splitOn (text : Text) : ∀ line ∈ text.splitOn '\n', '\n' ∉ line := by
  induction text with
  | nil => simp
  | cons c text ih =>
    rw [List.splitOn_cons_eq_if_modifyHead]
    split
    case isTrue => simpa using ih
    case isFalse hc =>
      intro line hline
      obtain ⟨first, rest, hsplit⟩ := List.exists_cons_of_ne_nil (List.splitOn_ne_nil '\n' text)
      rw [hsplit] at ih hline
      rcases List.mem_cons.mp hline with rfl | hline
      · rw [List.mem_cons, not_or]
        exact ⟨fun h => hc (beq_iff_eq.mpr h.symm), ih first List.mem_cons_self⟩
      · exact ih line (List.mem_cons_of_mem first hline)

theorem normalizeText_dehyphenate (hu : LetterLaws u) (text : Text) :
    normalizeText u { dehyphenate := true } text =
      oneLine (dehyphenateLines u false ((cleaned u text).splitOn '\n')) := by
  have hlines : ['\n'].intercalate ((cleaned u text).splitOn '\n') = cleaned u text :=
    List.intercalate_splitOn '\n'
  rw [← dehyphenateTaken_intercalate hu (newline_not_mem_splitOn _) (fun h => by cases h), hlines]
  rfl

/-- Every hyphenated line break between two words is joined by the rule. -/
def AllJoined (u : UnicodeData) (lines : List Text) : Prop :=
  normalizeText u { dehyphenate := true } (['\n'].intercalate lines) =
    oneLine (joinEvery u (cleanedLines u lines))

instance (u : UnicodeData) (lines : List Text) : Decidable (AllJoined u lines) :=
  inferInstanceAs (Decidable (_ = _))

/-- Every hyphenated line break is joined exactly if no line consists of one broken word between
two of them. -/
theorem allJoined_iff (hu : LetterLaws u) (lines : List Text) :
    AllJoined u lines ↔ ¬ Chained u (cleanedLines u lines) := by
  rw [AllJoined, normalizeText_dehyphenate hu]
  constructor
  · intro h hchained
    exact (missed_of_chained (.inr hchained)).oneLine_ne hu h
  · intro h
    exact congrArg oneLine (dehyphenateLines_eq_joinEvery rfl h)

/-! ## Three Lines -/

theorem letterLaws_acuteData : LetterLaws acuteData where
  hyphen := by decide
  whitespace c hc := by
    have hspace : c.toNat < 65 ∨ 122 < c.toNat ∧ c.toNat ≠ 233 := by
      simp only [isWhitespace, List.mem_cons, List.not_mem_nil, or_false, Bool.or_eq_true,
        decide_eq_true_eq, Bool.and_eq_true] at hc
      omega
    refine Bool.eq_false_iff.mpr fun h => ?_
    have hletter : 65 ≤ c.toNat ∧ c.toNat ≤ 122 ∨ c.toNat = 233 := by
      change ((decide (65 ≤ c.val ∧ c.val ≤ 90) ||
        (decide (97 ≤ c.val) && decide (c.val ≤ 122))) || decide (c = 'é')) = true at h
      simp only [Bool.or_eq_true, decide_eq_true_eq, Bool.and_eq_true,
        UInt32.le_iff_toNat_le] at h
      rcases h with (h | h) | rfl
      · exact .inl ⟨h.1, h.2.trans (by decide)⟩
      · exact .inl ⟨le_trans (by decide) h.1, h.2⟩
      · exact .inr (by decide)
    omega

def brokenWord : List Text := [['a', '-'], ['b', '-'], ['c']]

theorem allJoined_iff_brokenWord : ¬ AllJoined acuteData brokenWord := by
  rw [allJoined_iff letterLaws_acuteData, not_not]
  exact ⟨['a', '-'], ['b', '-'], ['c'], by decide, by decide, by decide, by decide⟩

/-- The second break keeps its hyphen and gets a space. -/
theorem not_forall_allJoined :
    ¬ ∀ (u : UnicodeData), LetterLaws u → ∀ lines : List Text, AllJoined u lines := by
  intro h
  exact absurd (h acuteData letterLaws_acuteData brokenWord) (by decide)

end AudioBook.LineBreaks
