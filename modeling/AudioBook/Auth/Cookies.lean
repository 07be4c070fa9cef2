import AudioBook.Ingestion.NormalForm
import AudioBook.Texts.PercentEncoding
import Mathlib.Data.List.Nodup

/-!
# Cookies

`serializeCookie` encodes the value of a cookie and writes its name as it is. `parseCookies` decodes
every value that stands in the header, also those of other applications, and lets `URIError`
through.

- `parseCookies`: what a header is read as.
- `cookies_iff`: which headers are read, and which cookies are read back.
-/

namespace AudioBook.Cookies

open NormalForm PercentEncoding

/-! ## Serialising -/

/-- A string as its code points: characters and lone surrogates. -/
abbrev CodePoints := List (Char ⊕ Fin 2048)

def toCodePoints (text : Text) : CodePoints := text.map .inl

def toText (value : CodePoints) : Option Text := value.mapM Sum.getLeft?

inductive SameSite
  | strict
  | lax
  | none

def SameSite.value : SameSite → Text
  | strict => "Strict".toList
  | lax => "Lax".toList
  | none => "None".toList

structure CookieOptions where
  httpOnly : Bool := false
  secure : Bool := false
  sameSite : Option SameSite := none
  path : Option Text := none
  maxAgeSeconds : Option ℤ := none

/-- `name=value`; `encodeURIComponent` throws on a lone surrogate. -/
def cookiePair (name : Text) (value : CodePoints) : Option Text :=
  (toText value).map fun text => name ++ '=' :: encodeURIComponent text

def serializeCookie (name : Text) (value : CodePoints) (options : CookieOptions) : Option Text :=
  (cookiePair name value).map fun pair =>
    [';', ' '].intercalate
      ([pair, "Path=".toList ++ options.path.getD ['/']] ++
        (options.maxAgeSeconds.map fun age =>
          "Max-Age=".toList ++ Nat.toDigits 10 (max 0 age).toNat).toList ++
        (if options.httpOnly = true then ["HttpOnly".toList] else []) ++
        (if options.secure = true then ["Secure".toList] else []) ++
        ["SameSite=".toList ++ (options.sameSite.getD .lax).value])

/-! ## Parsing -/

/-- The own properties of an object with string values. -/
abbrev Properties := Text → Option Text

/-- `out[key] = value`. The setter of `__proto__` ignores a string. -/
def assign (out : Properties) (key value : Text) : Properties :=
  if key = "__proto__".toList then out else Function.update out key (some value)

/-- The key of a part with `=`. -/
def keyOf (part : Text) : Text := trim (part.takeWhile fun c => decide (c ≠ '='))

/-- The value of a part with `=`, not decoded yet. -/
def valueOf (part : Text) : Text := trim ((part.dropWhile fun c => decide (c ≠ '=')).drop 1)

/-- Read a part of the header; `none` if `decodeURIComponent` throws. -/
def readPart (out : Properties) (part : Text) : Option Properties :=
  if '=' ∉ part then some out
  else if keyOf part = [] then some out
  else (decodeURIComponent (valueOf part)).map (assign out (keyOf part))

def parseCookies : Option Text → Option Properties
  | none => some fun _ => none
  | some header =>
      if header = [] then some fun _ => none
      else (header.splitOn ';').foldlM readPart fun _ => none

/-- A part that has a key has a value that can be decoded. -/
def WellEscaped (part : Text) : Prop :=
  '=' ∈ part → keyOf part ≠ [] → (decodeURIComponent (valueOf part)).isSome = true

structure CookieJar where
  cookies : List (Text × CodePoints)
  distinct : (cookies.map Prod.fst).Nodup

/-- The `Cookie` header that has the pairs of the cookies. -/
def CookieJar.header (jar : CookieJar) : Option Text :=
  (jar.cookies.mapM fun cookie => cookiePair cookie.1 cookie.2).map [';', ' '].intercalate

/-- The header is read, and the result has exactly the cookies. -/
def RoundTrips (jar : CookieJar) : Prop :=
  ∃ header out, jar.header = some header ∧ parseCookies (some header) = some out ∧
    ∀ name, (out name).map toCodePoints = jar.cookies.lookup name

/-- A name that the parser gives back: no separator is in it, nothing is trimmed off it, and it can
be a property. -/
structure IsName (name : Text) : Prop where
  semicolon : ';' ∉ name
  equals : '=' ∉ name
  trimmed : trim name = name
  nonempty : name ≠ []
  proto : name ≠ "__proto__".toList

variable {out out' : Properties} {part name value text : Text} {parts : List Text}

/-! ## Totality -/

theorem isSome_readPart : (readPart out part).isSome = true ↔ WellEscaped part := by
  unfold readPart WellEscaped
  split_ifs with hequals hkey
  · exact iff_of_true rfl fun _ hne => absurd hkey hne
  · simp [hequals, hkey]
  · exact iff_of_true rfl fun hmem => absurd hmem hequals

theorem isSome_foldlM_readPart :
    (parts.foldlM readPart out).isSome = true ↔ ∀ part ∈ parts, WellEscaped part := by
  induction parts generalizing out with
  | nil => simp
  | cons part parts ih =>
    have hpart : (readPart out part).isSome = true ↔ WellEscaped part := isSome_readPart
    rw [List.forall_mem_cons, ← hpart, List.foldlM_cons]
    cases readPart out part with
    | none => simp
    | some out => simpa using ih

theorem isSome_parseCookies {header : Text} :
    (parseCookies (some header)).isSome = true ↔ ∀ part ∈ header.splitOn ';', WellEscaped part := by
  rw [parseCookies]
  split
  case isTrue hnil => simp [hnil, WellEscaped]
  case isFalse => exact isSome_foldlM_readPart

/-! ## Names -/

theorem isName_of_readPart (hpart : ';' ∉ part) (h : readPart out part = some out')
    (hname : out' name ≠ none) : out name ≠ none ∨ IsName name := by
  unfold readPart at h
  split_ifs at h with hequals hkey
  · exact .inl (Option.some.inj h ▸ hname)
  swap
  · exact .inl (Option.some.inj h ▸ hname)
  · obtain ⟨value, -, rfl⟩ := Option.map_eq_some_iff.mp h
    unfold assign at hname
    split_ifs at hname with hproto
    · exact .inl hname
    -- the key of this part, or another one that keeps its value
    by_cases hkeyname : name = keyOf part
    · have hsub : ∀ c ∈ keyOf part, c ∈ part.takeWhile fun c => decide (c ≠ '=') := fun c hc =>
        (isInfix_trim _).subset hc
      right
      rw [hkeyname]
      exact
        { semicolon := fun hc => hpart ((List.takeWhile_prefix _).subset (hsub _ hc))
          equals := fun hc => by simpa using List.mem_takeWhile_imp (hsub _ hc)
          trimmed := trim_eq_self (fun _ hc => isWhitespace_head_trim hc)
            fun _ hc => isWhitespace_getLast_trim hc
          nonempty := hkey
          proto := hproto }
    · rw [Function.update_of_ne hkeyname] at hname
      exact .inl hname

theorem isName_of_foldlM (hparts : ∀ part ∈ parts, ';' ∉ part)
    (h : parts.foldlM readPart out = some out') (hname : out' name ≠ none) :
    out name ≠ none ∨ IsName name := by
  induction parts generalizing out with
  | nil =>
    obtain rfl := Option.some.inj h
    exact .inl hname
  | cons part parts ih =>
    obtain ⟨hpart, hparts⟩ := List.forall_mem_cons.mp hparts
    rw [List.foldlM_cons] at h
    obtain ⟨mid, hmid, h⟩ := Option.bind_eq_some_iff.mp h
    -- a later part, this part, or one before it
    rcases ih hparts h with hmidname | hname
    · exact isName_of_readPart hpart hmid hmidname
    · exact .inr hname

theorem not_mem_of_mem_splitOn {sep : Char} (h : part ∈ text.splitOn sep) : sep ∉ part := by
  induction text generalizing part with
  | nil =>
    rw [List.splitOn_nil, List.mem_singleton] at h
    simp [h]
  | cons c text ih =>
    rw [List.splitOn_cons_eq_if_modifyHead] at h
    split at h
    · rcases List.mem_cons.mp h with rfl | h
      · exact List.not_mem_nil
      · exact ih h
    · rename_i hc
      obtain ⟨first, rest, heq⟩ := List.exists_cons_of_ne_nil (List.splitOn_ne_nil sep text)
      rw [heq, List.modifyHead_cons, List.mem_cons] at h
      rcases h with rfl | h
      · have hfirst := ih (heq ▸ List.mem_cons_self)
        simp only [List.mem_cons, not_or]
        exact ⟨fun hsep => by simp [hsep] at hc, hfirst⟩
      · exact ih (heq ▸ List.mem_cons_of_mem _ h)

/-! ## Reading Back -/

theorem plain_of_mem_encode {c : Char} (h : c ∈ encodeURIComponent text) :
    isWhitespace c = false ∧ c ≠ ';' := by
  have hhex : ∀ n < 16, isWhitespace (hexChar n) = false ∧ hexChar n ≠ ';' := by decide
  obtain ⟨d, -, hd⟩ := List.mem_flatMap.mp h
  unfold encodeChar at hd
  split at hd
  case isTrue hplain =>
    obtain rfl := List.mem_singleton.mp hd
    rw [isPlain, Bool.or_eq_true] at hplain
    rcases hplain with halnum | hmark
    · have hrange := toNat_of_isAlphanum halnum
      constructor
      · simp only [isWhitespace, List.mem_cons, List.not_mem_nil, or_false, Bool.or_eq_false_iff,
          Bool.and_eq_false_iff, decide_eq_false_iff_not]
        omega
      · rintro rfl
        exact absurd hrange (by decide)
    · have hmem := of_decide_eq_true hmark
      simp only [List.mem_cons, List.not_mem_nil, or_false] at hmem
      rcases hmem with rfl | rfl | rfl | rfl | rfl | rfl | rfl | rfl | rfl <;> decide
  case isFalse =>
    obtain ⟨octet, hoctet, hc⟩ := List.mem_flatMap.mp hd
    have hlt := octet_lt hoctet
    simp only [escapeOctet, List.mem_cons, List.not_mem_nil, or_false] at hc
    rcases hc with rfl | rfl | rfl
    · decide
    · exact hhex _ (by omega)
    · exact hhex _ (by omega)

/-- The pair of a cookie whose value has no lone surrogate. -/
def pairOf (cookie : Text × Text) : Text := cookie.1 ++ '=' :: encodeURIComponent cookie.2

def store (out : Properties) (cookie : Text × Text) : Properties :=
  Function.update out cookie.1 (some cookie.2)

theorem readPart_pair {cookie : Text × Text} (hname : IsName cookie.1) {front : Text}
    (hfront : front = [] ∨ front = [' ']) :
    readPart out (front ++ pairOf cookie) = some (store out cookie) := by
  -- the first `=` is the one behind the name
  have hbefore : ∀ c ∈ front ++ cookie.1, decide (c ≠ '=') = true := by
    intro c hc
    refine decide_eq_true ?_
    rintro rfl
    rcases List.mem_append.mp hc with hc | hc
    · rcases hfront with rfl | rfl <;> simp at hc
    · exact hname.equals hc
  have hkey : keyOf (front ++ pairOf cookie) = cookie.1 := by
    rw [keyOf, pairOf, ← List.append_assoc, List.takeWhile_append_of_pos hbefore,
      List.takeWhile_cons_of_neg (by simp), List.append_nil]
    rcases hfront with rfl | rfl
    · exact hname.trimmed
    · rw [trim, List.cons_append, List.nil_append, List.dropWhile_cons_of_pos (by decide)]
      exact hname.trimmed
  have hvalue : valueOf (front ++ pairOf cookie) = encodeURIComponent cookie.2 := by
    rw [valueOf, pairOf, ← List.append_assoc, List.dropWhile_append_of_pos hbefore,
      List.dropWhile_cons_of_neg (by simp), List.drop_one, List.tail_cons]
    exact trim_eq_self (fun c hc => (plain_of_mem_encode (List.mem_of_mem_head? hc)).1)
      fun c hc => (plain_of_mem_encode (List.mem_of_getLast? hc)).1
  rw [readPart, hkey, hvalue, decodeURIComponent_encode, if_neg (by simp [pairOf]),
    if_neg hname.nonempty, Option.map_some, assign, if_neg hname.proto, store]

variable {cookies : List (Text × Text)}

theorem foldlM_pairs (hnames : ∀ cookie ∈ cookies, IsName cookie.1) :
    (cookies.map fun cookie => ' ' :: pairOf cookie).foldlM readPart out =
      some (cookies.foldl store out) := by
  induction cookies generalizing out with
  | nil => rfl
  | cons cookie cookies ih =>
    obtain ⟨hname, hnames⟩ := List.forall_mem_cons.mp hnames
    have hread : readPart out ([' '] ++ pairOf cookie) = some (store out cookie) :=
      readPart_pair hname (.inr rfl)
    rw [List.map_cons, List.foldlM_cons, ← List.singleton_append, hread]
    exact ih hnames

theorem splitOn_intercalate {first : Text} {rest : List Text} (hfirst : ';' ∉ first)
    (hrest : ∀ part ∈ rest, ';' ∉ part) :
    ([';', ' '].intercalate (first :: rest)).splitOn ';' = first :: rest.map (' ' :: ·) := by
  induction rest generalizing first with
  | nil => simpa using List.splitOn_eq_singleton hfirst
  | cons second rest ih =>
    obtain ⟨hsecond, hrest⟩ := List.forall_mem_cons.mp hrest
    have hspace : ';' ∉ ' ' :: second := by simp [hsecond]
    -- the blank behind the separator goes to the second part
    have hjoin : [';', ' '].intercalate (first :: second :: rest) =
        first ++ ';' :: [';', ' '].intercalate ((' ' :: second) :: rest) := by
      cases rest <;> simp [List.intercalate]
    rw [hjoin, List.splitOn_append_cons_self_of_not_mem hfirst, ih hspace hrest, List.map_cons]

theorem foldl_store (hdistinct : (cookies.map Prod.fst).Nodup) (name : Text) :
    cookies.foldl store out name = (cookies.lookup name).or (out name) := by
  induction cookies generalizing out with
  | nil => rfl
  | cons cookie cookies ih =>
    obtain ⟨hnot, hdistinct⟩ := List.nodup_cons.mp hdistinct
    rw [List.foldl_cons, ih hdistinct, List.lookup_cons]
    by_cases hname : name = cookie.1
    -- no later cookie overwrites it
    · have hnone : cookies.lookup cookie.1 = none := by
        refine List.lookup_eq_none_iff.mpr fun other hother => ?_
        simp only [bne_iff_ne]
        exact fun heq => hnot (heq ▸ List.mem_map.mpr ⟨other, hother, rfl⟩)
      simp [hname, hnone, store]
    · simp [hname, store, beq_eq_false_iff_ne.mpr hname]

theorem parse_pairs (hnames : ∀ cookie ∈ cookies, IsName cookie.1)
    (hdistinct : (cookies.map Prod.fst).Nodup) :
    parseCookies (some ([';', ' '].intercalate (cookies.map pairOf))) =
      some fun name => cookies.lookup name := by
  cases cookies with
  | nil => rfl
  | cons cookie cookies =>
    have hsemicolon : ∀ other ∈ cookie :: cookies, ';' ∉ pairOf other := by
      intro other hother hmem
      rcases List.mem_append.mp hmem with hmem | hmem
      · exact (hnames other hother).semicolon hmem
      · rcases List.mem_cons.mp hmem with heq | hmem
        · exact absurd heq (by decide)
        · exact (plain_of_mem_encode hmem).2 rfl
    obtain ⟨hname, hothers⟩ := List.forall_mem_cons.mp hnames
    have hread : readPart (fun _ => none) ([] ++ pairOf cookie) = some (store _ cookie) :=
      readPart_pair hname (.inl rfl)
    have hne : [';', ' '].intercalate ((cookie :: cookies).map pairOf) ≠ [] := by
      cases cookies <;> simp [List.intercalate, pairOf]
    rw [parseCookies, if_neg hne, List.map_cons,
      splitOn_intercalate (hsemicolon _ List.mem_cons_self)
        (List.forall_mem_map.mpr fun other hother => hsemicolon _ (List.mem_cons_of_mem _ hother)),
      List.map_map, List.foldlM_cons, ← List.nil_append (pairOf cookie), hread]
    refine (foldlM_pairs hothers).trans (congrArg some (funext fun name => ?_))
    have hlookup : (cookie :: cookies).foldl store (fun _ => none) name = _ :=
      foldl_store hdistinct name
    rwa [Option.or_none] at hlookup

/-! ## Both Ways -/

theorem toText_toCodePoints (text : Text) : toText (toCodePoints text) = some text := by
  induction text with
  | nil => rfl
  | cons c text ih =>
    rw [toText] at ih ⊢
    rw [toCodePoints, List.map_cons, List.mapM_cons, ← toCodePoints, ih]
    rfl

theorem exists_toCodePoints {value : CodePoints} (h : ∀ point ∈ value, point.isLeft = true) :
    ∃ text, value = toCodePoints text := by
  induction value with
  | nil => exact ⟨[], rfl⟩
  | cons point value ih =>
    obtain ⟨hpoint, hvalue⟩ := List.forall_mem_cons.mp h
    obtain ⟨text, rfl⟩ := ih hvalue
    obtain ⟨c, rfl⟩ := Sum.isLeft_iff.mp hpoint
    exact ⟨c :: text, rfl⟩

theorem exists_texts {cookies : List (Text × CodePoints)}
    (h : ∀ cookie ∈ cookies, ∀ point ∈ cookie.2, point.isLeft = true) :
    ∃ texts : List (Text × Text), cookies = texts.map (Prod.map id toCodePoints) := by
  induction cookies with
  | nil => exact ⟨[], rfl⟩
  | cons cookie cookies ih =>
    obtain ⟨hcookie, hcookies⟩ := List.forall_mem_cons.mp h
    obtain ⟨texts, rfl⟩ := ih hcookies
    obtain ⟨text, htext⟩ := exists_toCodePoints hcookie
    exact ⟨(cookie.1, text) :: texts, by simp [← htext]⟩

theorem lookup_map (name : Text) :
    (cookies.map (Prod.map id toCodePoints)).lookup name =
      (cookies.lookup name).map toCodePoints := by
  induction cookies with
  | nil => rfl
  | cons cookie cookies ih =>
    rw [List.map_cons, List.lookup_cons, List.lookup_cons, ih]
    cases hname : name == cookie.1 <;> simp [hname]

theorem mapM_cookiePair :
    (cookies.map (Prod.map id toCodePoints)).mapM (fun cookie => cookiePair cookie.1 cookie.2) =
      some (cookies.map pairOf) := by
  induction cookies with
  | nil => rfl
  | cons cookie cookies ih =>
    rw [List.map_cons, List.mapM_cons, ih]
    simp [cookiePair, toText_toCodePoints, pairOf]

theorem CookieJar.lookup_of_mem (jar : CookieJar) {value : CodePoints}
    (h : (name, value) ∈ jar.cookies) : jar.cookies.lookup name = some value := by
  obtain ⟨front, back, hcookies⟩ := List.append_of_mem h
  have hdistinct := jar.distinct
  rw [hcookies, List.map_append, List.map_cons, List.nodup_middle, List.nodup_cons,
    List.mem_append, not_or] at hdistinct
  refine List.lookup_eq_some_iff.mpr ⟨front, back, hcookies, fun other hother => ?_⟩
  simp only [bne_iff_ne]
  exact fun heq => hdistinct.1.1 (heq ▸ List.mem_map.mpr ⟨other, hother, rfl⟩)

theorem RoundTrips.names {jar : CookieJar} (h : RoundTrips jar) :
    ∀ cookie ∈ jar.cookies, IsName cookie.1 ∧ ∀ point ∈ cookie.2, point.isLeft = true := by
  obtain ⟨header, out, -, hparse, hout⟩ := h
  rintro ⟨name, value⟩ hmem
  obtain ⟨text, htext, hvalue⟩ : ∃ text, out name = some text ∧ toCodePoints text = value :=
    Option.map_eq_some_iff.mp ((hout name).trans (jar.lookup_of_mem hmem))
  constructor
  -- the name is one that some part of the header was read as
  · rw [parseCookies] at hparse
    split at hparse
    · rw [← Option.some.inj hparse] at htext
      cases htext
    · exact (isName_of_foldlM (fun part hpart => not_mem_of_mem_splitOn hpart) hparse
        (by simp [htext])).resolve_left fun hnone => hnone rfl
  · rw [← hvalue]
    simp [toCodePoints]

theorem roundTrips_of_names {jar : CookieJar}
    (h : ∀ cookie ∈ jar.cookies, IsName cookie.1 ∧ ∀ point ∈ cookie.2, point.isLeft = true) :
    RoundTrips jar := by
  obtain ⟨texts, htexts⟩ := exists_texts fun cookie hmem => (h cookie hmem).2
  have hdistinct : (texts.map Prod.fst).Nodup := by
    have hnodup := jar.distinct
    rwa [htexts, List.map_map] at hnodup
  have hnames : ∀ cookie ∈ texts, IsName cookie.1 := fun cookie hmem =>
    (h (Prod.map id toCodePoints cookie) (htexts ▸ List.mem_map_of_mem hmem)).1
  refine ⟨_, _, ?_, parse_pairs hnames hdistinct, fun name => ?_⟩
  · rw [CookieJar.header, htexts, mapM_cookiePair]
    rfl
  · rw [htexts, lookup_map]

/-- A header is read when each of its values can be decoded, and cookies are read back when the
parser gives back their names and their values have no lone surrogates. -/
theorem cookies_iff (header : Text) (jar : CookieJar) :
    ((parseCookies (some header)).isSome = true ↔
      ∀ part ∈ header.splitOn ';', WellEscaped part) ∧
    (RoundTrips jar ↔ ∀ cookie ∈ jar.cookies,
      IsName cookie.1 ∧ ∀ point ∈ cookie.2, point.isLeft = true) :=
  ⟨isSome_parseCookies, RoundTrips.names, roundTrips_of_names⟩

/-- The header of another application's cookie. -/
theorem not_forall_cookies :
    ¬ ∀ (header : Text) (jar : CookieJar),
      (parseCookies (some header)).isSome = true ∧ RoundTrips jar := by
  intro h
  have hsome := (h "theme=50%".toList ⟨[], List.nodup_nil⟩).1
  exact absurd hsome (by decide +kernel)

end AudioBook.Cookies
