import AudioBook.Books.Quota
import AudioBook.Texts.PercentEncoding
import Mathlib.Data.List.DropRight

/-!
# Buckets of Routes

`resolveBucket` of `rate-limit/buckets.ts` tells from the raw target of a request which rate limit
applies, and `QuotaGuard` whether a quota does. The router decodes a target before it compares it with
its routes, so that a word of a route can be spelled in several ways.

Main results:

- `pathSegments_of_dispatches`, `exists_target`: the segments that are seen are spellings of a route.
- `sameTreatment_iff`: for which routes and methods all targets are treated alike.
-/

namespace AudioBook.RouteBuckets

open PercentEncoding Quota

/-! ## The Guards -/

/-- `segments` of `resolveBucket`. -/
def pathSegments (path : Text) : List String :=
  let pathname := (path.takeWhile (· ≠ '?')).rdropWhile (· = '/')
  ((pathname.splitOn '/').filter fun segment => !segment.isEmpty).map String.ofList

def resolveBucket (method : String) (path : Text) : RateLimitBucket :=
  Quota.resolveBucket method.toUpper (pathSegments path)

/-- `QuotaGuard.canActivate`, for a principal of the tenant and the parameter `bookId`. -/
def canActivate (tenantId : ℕ) (method : String) (url : Text) (bookId : Option ℕ) :
    QuotaService (Option ℕ) :=
  Quota.canActivate tenantId method.toUpper (pathSegments url) bookId

/-! ## The Router -/

/-- The word is not empty, and it needs no escapes. -/
def isWord (word : String) : Bool := !word.toList.isEmpty && word.toList.all isUnreserved

inductive Segment
  | literal (word : String) (h : isWord word = true)
  | param

/-- A part of a path matches a segment; escapes of unreserved characters are decoded first. -/
def Segment.matches : Segment → Text → Bool
  | .literal word _, part => decide (decodeUnreserved part = word.toList)
  | .param, part => !part.isEmpty

def matchesAll : List Segment → List Text → Bool
  | [], [] => true
  | segment :: route, part :: parts => segment.matches part && matchesAll route parts
  | _, _ => false

/-- Whether a path may end with a slash. -/
structure Router where
  acceptsTrailingSlash : Bool

def Router.parts (router : Router) (path : Text) : List Text :=
  let parts := path.splitOn '/'
  if parts.getLast? = some [] ∧ (router.acceptsTrailingSlash = true ∨ parts = [[]]) then
    parts.dropLast
  else parts

def dispatches (router : Router) (route : List Segment) (target : Text) : Bool :=
  match target.takeWhile (· ≠ '?') with
  | '/' :: path => matchesAll route (router.parts path)
  | _ => false

/-- All targets of the route have one bucket, and `QuotaGuard` does the same for them. -/
def SameTreatment (router : Router) (route : List Segment) (method : String) : Prop :=
  ∀ target target', dispatches router route target = true →
    dispatches router route target' = true →
      resolveBucket method target = resolveBucket method target' ∧
        ∀ tenantId bookId,
          canActivate tenantId method target bookId = canActivate tenantId method target' bookId

/-! ## Words That Count -/

/-- The segment can be spelled like this: it is the word, or a parameter. -/
def Segment.mayBe (word : String) : Segment → Bool
  | .literal own _ => decide (own = word)
  | .param => true

/-- The route is one of `/api/v1/auth`, or may look like one. -/
def mayBeAuth : List Segment → Bool
  | first :: second :: third :: _ =>
      first.mayBe "api" && second.mayBe "v1" && third.mayBe "auth"
  | _ => false

def lastMayBe (route : List Segment) (word : String) : Bool :=
  route.getLast?.any (Segment.mayBe word)

def anyMayBe (route : List Segment) (word : String) : Bool := route.any (Segment.mayBe word)

/-- No segment of the route may be a word that counts where it stands. -/
def Stable (route : List Segment) (verb : String) : Prop :=
  mayBeAuth route = false ∧
    (verb = "GET" ∨ verb = "HEAD" ∨
      lastMayBe route "access-urls" = false ∧ anyMayBe route "upload-sessions" = false ∧
        (∀ word ∈ expensiveSegments, lastMayBe route word = false) ∧
        (verb = "POST" → ∀ word ∈ expensiveSegments, anyMayBe route word = false))

/-- The bucket of a path in which no word counts. -/
def defaultBucket (verb : String) : RateLimitBucket :=
  if verb = "GET" ∨ verb = "HEAD" then .read else .write

theorem resolveBucket_eq_default_iff (verb : String) (segments : List String) :
    Quota.resolveBucket verb segments = defaultBucket verb ↔
      ¬ (segments[0]? = some "api" ∧ segments[1]? = some "v1" ∧ segments[2]? = some "auth") ∧
        (verb = "GET" ∨ verb = "HEAD" ∨
          segments.getLast?.getD "" ≠ "access-urls" ∧ "upload-sessions" ∉ segments ∧
            segments.getLast?.getD "" ∉ expensiveSegments ∧
            (verb = "POST" → ∀ word ∈ expensiveSegments, word ∉ segments)) := by
  simp only [Quota.resolveBucket, defaultBucket]
  split
  case isTrue hauth => split <;> simp [hauth]
  case isFalse hauth =>
    rw [and_iff_right hauth, ← or_assoc]
    by_cases hread : verb = "GET" ∨ verb = "HEAD"
    case pos => simp [hread]
    case neg =>
      rw [if_neg hread, if_neg hread, or_iff_right hread]
      split
      case isTrue hlast => simp [hlast]
      case isFalse hlast =>
        rw [and_iff_right hlast]
        split
        case isTrue hupload => simp [hupload]
        case isFalse hupload =>
          rw [and_iff_right hupload]
          split
          case isTrue hexpensive => simp [hexpensive]
          case isFalse hexpensive =>
            rw [and_iff_right hexpensive]
            split
            case isTrue hany =>
              obtain ⟨⟨word, hword, hmem⟩, hpost⟩ := hany
              exact iff_of_false (by simp) fun h => h hpost word hmem hword
            case isFalse hany =>
              exact iff_of_true rfl fun hpost word hmem hword => hany ⟨⟨word, hword, hmem⟩, hpost⟩

/-! ## Paths -/

theorem filter_splitOn_rdropWhile (path : Text) :
    ((path.rdropWhile (· = '/')).splitOn '/').filter (fun part => !part.isEmpty) =
      (path.splitOn '/').filter fun part => !part.isEmpty := by
  induction path using List.reverseRecOn with
  | nil => rfl
  | append_singleton path c ih =>
    by_cases hc : c = '/'
    case pos =>
      subst hc
      rw [List.rdropWhile_concat_pos _ _ _ (by simp), ih, List.splitOn_append_cons_self]
      simp
    case neg => rw [List.rdropWhile_concat_neg _ _ _ (by simp [hc])]

theorem isEmpty_eq_false_of_matches {segment : Segment} {part : Text}
    (h : segment.matches part = true) : part.isEmpty = false := by
  cases segment with
  | literal word hword =>
    simp only [isWord, Bool.and_eq_true, Bool.not_eq_true'] at hword
    cases part with
    | nil =>
      have hnil : decodeUnreserved [] = word.toList := of_decide_eq_true h
      rw [← hnil] at hword
      exact absurd hword.1 (by simp [decodeUnreserved])
    | cons c part => rfl
  | param => simpa [Segment.matches] using h

variable {route : List Segment} {parts : List Text}

theorem length_eq_of_matchesAll (h : matchesAll route parts = true) :
    route.length = parts.length := by
  fun_induction matchesAll route parts with
  | case1 => rfl
  | case2 segment route part parts ih =>
    rw [Bool.and_eq_true] at h
    rw [List.length_cons, List.length_cons, ih h.2]
  | case3 => cases h

theorem filter_eq_self_of_matchesAll (h : matchesAll route parts = true) :
    parts.filter (fun part => !part.isEmpty) = parts := by
  fun_induction matchesAll route parts with
  | case1 => rfl
  | case2 segment route part parts ih =>
    rw [Bool.and_eq_true] at h
    rw [List.filter_cons_of_pos (by simp [isEmpty_eq_false_of_matches h.1]), ih h.2]
  | case3 => cases h

theorem pathSegments_eq (router : Router) {target path : Text}
    (hpath : target.takeWhile (· ≠ '?') = '/' :: path) :
    pathSegments target =
      ((router.parts path).filter fun part => !part.isEmpty).map String.ofList := by
  have hsplit : ('/' :: path).splitOn '/' = [] :: path.splitOn '/' :=
    List.splitOn_append_cons_self [] path
  rw [pathSegments, hpath, filter_splitOn_rdropWhile, hsplit, List.filter_cons_of_neg (by simp)]
  congr 1
  rw [Router.parts]
  split
  case isFalse => rfl
  case isTrue hlast =>
    obtain ⟨parts, hparts⟩ := List.getLast?_eq_some_iff.mp hlast.1
    rw [hparts]
    simp

theorem pathSegments_of_dispatches {router : Router} {target : Text}
    (h : dispatches router route target = true) :
    ∃ parts, matchesAll route parts = true ∧ pathSegments target = parts.map String.ofList := by
  rw [dispatches] at h
  split at h
  case h_2 => cases h
  case h_1 path hpath =>
    refine ⟨router.parts path, h, ?_⟩
    rw [pathSegments_eq router hpath, filter_eq_self_of_matchesAll h]

/-- The part is not empty, and has no slash and no question mark. -/
def isPart (part : String) : Bool :=
  !part.toList.isEmpty && part.toList.all fun c => decide (c ≠ '/' ∧ c ≠ '?')

theorem of_isPart {part : String} (h : isPart part = true) :
    part.toList ≠ [] ∧ '/' ∉ part.toList ∧ '?' ∉ part.toList := by
  rw [isPart, Bool.and_eq_true, List.all_eq_true] at h
  refine ⟨by simpa using h.1, fun hmem => ?_, fun hmem => ?_⟩
  · exact absurd (h.2 '/' hmem) (by decide)
  · exact absurd (h.2 '?' hmem) (by decide)

theorem mem_intercalate {c : Char} (h : c ∈ ['/'].intercalate parts) :
    c = '/' ∨ ∃ part ∈ parts, c ∈ part := by
  induction parts with
  | nil => cases h
  | cons part parts ih =>
    cases parts with
    | nil => exact .inr ⟨part, List.mem_cons_self, by simpa [List.intercalate] using h⟩
    | cons next parts =>
      have hcons : ['/'].intercalate (part :: next :: parts) =
          part ++ '/' :: ['/'].intercalate (next :: parts) := by simp [List.intercalate]
      rw [hcons, List.mem_append, List.mem_cons] at h
      rcases h with hpart | hslash | hrest
      · exact .inr ⟨part, List.mem_cons_self, hpart⟩
      · exact .inl hslash
      · exact (ih hrest).imp_right fun ⟨other, hother, hc⟩ =>
          ⟨other, List.mem_cons_of_mem _ hother, hc⟩

theorem exists_target (router : Router) (parts : List String)
    (hparts : ∀ part ∈ parts, isPart part = true)
    (h : matchesAll route (parts.map String.toList) = true) :
    ∃ target, dispatches router route target = true ∧ pathSegments target = parts := by
  have hpath : ('/' :: ['/'].intercalate (parts.map String.toList)).takeWhile (· ≠ '?') =
      '/' :: ['/'].intercalate (parts.map String.toList) := by
    rw [List.takeWhile_eq_self_iff]
    intro c hc
    rw [decide_eq_true_eq]
    rintro rfl
    rcases List.mem_cons.mp hc with hslash | hc
    · exact absurd hslash (by decide)
    · obtain hslash | ⟨part, hpart, hmem⟩ := mem_intercalate hc
      · exact absurd hslash (by decide)
      · obtain ⟨text, htext, rfl⟩ := List.mem_map.mp hpart
        exact (of_isPart (hparts text htext)).2.2 hmem
  have hrouter : router.parts (['/'].intercalate (parts.map String.toList)) =
      parts.map String.toList := by
    rcases parts.eq_nil_or_concat with rfl | ⟨before, last, rfl⟩
    · simp [Router.parts]
    · have hlast : last.toList ≠ [] := (of_isPart (hparts last (by simp))).1
      have hsplit : (['/'].intercalate ((before.concat last).map String.toList)).splitOn '/' =
          (before.concat last).map String.toList := by
        refine List.splitOn_intercalate '/' (fun part hpart => ?_) (by simp)
        obtain ⟨text, htext, rfl⟩ := List.mem_map.mp hpart
        exact (of_isPart (hparts text htext)).2.1
      rw [Router.parts, hsplit]
      simp [hlast]
  refine ⟨_, ?_, (pathSegments_eq router hpath).trans ?_⟩
  · rw [dispatches, hpath]
    simpa only [hrouter] using h
  · rw [hrouter, filter_eq_self_of_matchesAll h, List.map_map]
    simp

/-! ## Stable Routes -/

/-- The words of `resolveBucket`. -/
def keywords : List String :=
  ["api", "v1", "auth", "access-urls", "upload-sessions"] ++ expensiveSegments

section Words

variable {segment : Segment} {route : List Segment} {parts : List Text} {word : String}

theorem keyword_ne_empty (h : word ∈ keywords) : word ≠ "" ∧ '%' ∉ word.toList := by
  have hall : ∀ word ∈ keywords, word ≠ "" ∧ '%' ∉ word.toList := by decide +kernel
  exact hall word h

theorem mayBe_of_matches (hword : word ∈ keywords) (h : segment.matches word.toList = true) :
    segment.mayBe word = true := by
  cases segment with
  | literal own hown =>
    have hdecoded : decodeUnreserved word.toList = own.toList := of_decide_eq_true h
    rw [decodeUnreserved_eq_self (keyword_ne_empty hword).2] at hdecoded
    exact decide_eq_true (String.toList_inj.mp hdecoded.symm)
  | param => rfl

theorem matches_of_ofList_eq {part : Text} (h : segment.matches part = true)
    (hpart : String.ofList part = word) : segment.matches word.toList = true := by
  rw [← hpart, String.toList_ofList]
  exact h

theorem anyMayBe_of_mem (hword : word ∈ keywords) (h : matchesAll route parts = true)
    (hmem : word ∈ parts.map String.ofList) : anyMayBe route word = true := by
  fun_induction matchesAll route parts with
  | case1 => cases hmem
  | case2 segment route part parts ih =>
    rw [Bool.and_eq_true] at h
    rw [anyMayBe, List.any_cons, Bool.or_eq_true]
    rcases List.mem_cons.mp hmem with hpart | hmem
    · exact .inl (mayBe_of_matches hword (matches_of_ofList_eq h.1 hpart.symm))
    · exact .inr (ih h.2 hmem)
  | case3 => cases h

theorem lastMayBe_of_getLast (hword : word ∈ keywords) (h : matchesAll route parts = true)
    (hlast : (parts.map String.ofList).getLast?.getD "" = word) :
    lastMayBe route word = true := by
  fun_induction matchesAll route parts with
  | case1 => exact absurd hlast.symm (keyword_ne_empty hword).1
  | case2 segment route part parts ih =>
    rw [Bool.and_eq_true] at h
    match route, parts, h.2 with
    | [], [], _ =>
      exact mayBe_of_matches hword (matches_of_ofList_eq h.1 (by simpa using hlast))
    | next :: route, part' :: parts, hrest =>
      have htail := ih hrest (by simpa using hlast)
      rw [lastMayBe] at htail ⊢
      rwa [List.getLast?_cons_cons]
  | case3 => cases h

theorem mayBeAuth_of_segments (h : matchesAll route parts = true)
    (hauth : (parts.map String.ofList)[0]? = some "api" ∧
      (parts.map String.ofList)[1]? = some "v1" ∧ (parts.map String.ofList)[2]? = some "auth") :
    mayBeAuth route = true := by
  have hparts : 2 < parts.length := by
    obtain ⟨hlength, -⟩ := List.getElem?_eq_some_iff.mp hauth.2.2
    simpa using hlength
  have hroute : 2 < route.length := by rwa [length_eq_of_matchesAll h]
  obtain ⟨api, v1, auth, parts, rfl⟩ : ∃ a b c rest, parts = a :: b :: c :: rest := by
    match parts, hparts with
    | a :: b :: c :: rest, _ => exact ⟨a, b, c, rest, rfl⟩
  obtain ⟨first, second, third, route, rfl⟩ : ∃ a b c rest, route = a :: b :: c :: rest := by
    match route, hroute with
    | a :: b :: c :: rest, _ => exact ⟨a, b, c, rest, rfl⟩
  simp only [matchesAll, Bool.and_eq_true] at h
  obtain ⟨hfirst, hsecond, hthird, -⟩ := h
  obtain ⟨hapi, hv1, hauth⟩ : String.ofList api = "api" ∧ String.ofList v1 = "v1" ∧
      String.ofList auth = "auth" := by simpa using hauth
  rw [mayBeAuth, mayBe_of_matches (by decide) (matches_of_ofList_eq hfirst hapi),
    mayBe_of_matches (by decide) (matches_of_ofList_eq hsecond hv1),
    mayBe_of_matches (by decide) (matches_of_ofList_eq hthird hauth)]
  rfl

theorem resolveBucket_of_stable {verb : String} (hstable : Stable route verb)
    (h : matchesAll route parts = true) :
    Quota.resolveBucket verb (parts.map String.ofList) = defaultBucket verb := by
  obtain ⟨hauth, hrest⟩ := hstable
  have hexpensive : ∀ word ∈ expensiveSegments, word ∈ keywords := fun word hword =>
    List.mem_append_right _ hword
  rw [resolveBucket_eq_default_iff]
  refine ⟨fun hsegments => ?_, hrest.imp_right (Or.imp_right ?_)⟩
  · rw [mayBeAuth_of_segments h hsegments] at hauth
    cases hauth
  · rintro ⟨haccess, hupload, hlast, hany⟩
    refine ⟨fun heq => ?_, fun hmem => ?_, fun hmem => ?_, fun hpost word hword hmem => ?_⟩
    · rw [lastMayBe_of_getLast (by decide) h heq] at haccess
      cases haccess
    · rw [anyMayBe_of_mem (by decide) h hmem] at hupload
      cases hupload
    · have hmay := lastMayBe_of_getLast (hexpensive _ hmem) h rfl
      rw [hlast _ hmem] at hmay
      cases hmay
    · have hmay := anyMayBe_of_mem (hexpensive word hword) h hmem
      rw [hany hpost word hword] at hmay
      cases hmay

end Words

/-! ## Spellings -/

/-- A spelling of a segment that is none of the words: the first character of a literal is escaped. -/
def plain : Segment → String
  | .literal word _ =>
      match word.toList with
      | [] => ""
      | c :: rest => String.ofList (escape c ++ rest)
  | .param => "x"

/-- The word, if the segment may be it, and a spelling that is none otherwise. -/
def spell (word : String) (segment : Segment) : String :=
  if segment.mayBe word then word else plain segment

section Spellings

variable {segment : Segment} {word : String}

theorem ne_of_isUnreserved {c : Char} (h : isUnreserved c = true) : c ≠ '%' ∧ c ≠ '/' ∧ c ≠ '?' := by
  refine ⟨?_, ?_, ?_⟩ <;> rintro rfl <;> exact absurd h (by decide)

theorem exists_toList_of_isWord {word : String} (h : isWord word = true) :
    ∃ c rest, word.toList = c :: rest ∧ isUnreserved c = true ∧
      ∀ d ∈ rest, isUnreserved d = true := by
  rw [isWord, Bool.and_eq_true, List.all_eq_true] at h
  cases hlist : word.toList with
  | nil => simp [hlist] at h
  | cons c rest =>
    rw [hlist] at h
    exact ⟨c, rest, rfl, h.2 c List.mem_cons_self, fun d hd => h.2 d (List.mem_cons_of_mem _ hd)⟩

theorem isPart_plain (segment : Segment) : isPart (plain segment) = true := by
  cases segment with
  | param => decide
  | literal word h =>
    obtain ⟨c, rest, hlist, hc, hrest⟩ := exists_toList_of_isWord h
    have hdigits : ∀ n < 16, hexChar n ≠ '/' ∧ hexChar n ≠ '?' := by decide
    have hlt := toNat_lt_of_isUnreserved hc
    simp only [plain, hlist, isPart, String.toList_ofList, escape, List.cons_append,
      List.nil_append, List.all_cons, Bool.and_eq_true, List.all_eq_true, decide_eq_true_eq]
    exact ⟨rfl, by decide, hdigits _ (by omega), hdigits _ (by omega), fun d hd =>
      (ne_of_isUnreserved (hrest d hd)).2⟩

theorem matches_plain (segment : Segment) : segment.matches (plain segment).toList = true := by
  cases segment with
  | param => decide
  | literal word h =>
    obtain ⟨c, rest, hlist, hc, hrest⟩ := exists_toList_of_isWord h
    have hescapes : '%' ∉ rest := fun hmem => (ne_of_isUnreserved (hrest '%' hmem)).1 rfl
    simp only [plain, hlist, Segment.matches, String.toList_ofList, decide_eq_true_eq]
    rw [decodeUnreserved_escape hc, decodeUnreserved_eq_self hescapes]

theorem plain_notMem_keywords (segment : Segment) : plain segment ∉ keywords := by
  intro hmem
  cases segment with
  | param => exact absurd hmem (by decide)
  | literal word h =>
    obtain ⟨c, rest, hlist, -, -⟩ := exists_toList_of_isWord h
    refine (keyword_ne_empty hmem).2 ?_
    simp [plain, hlist, escape]

theorem isPart_of_isWord (h : isWord word = true) : isPart word = true := by
  obtain ⟨c, rest, hlist, hc, hrest⟩ := exists_toList_of_isWord h
  simp only [isPart, hlist, List.all_cons, Bool.and_eq_true, List.all_eq_true, decide_eq_true_eq]
  exact ⟨rfl, (ne_of_isUnreserved hc).2, fun d hd => (ne_of_isUnreserved (hrest d hd)).2⟩

theorem isWord_of_mem_keywords (h : word ∈ keywords) : isWord word = true := by
  have hall : ∀ word ∈ keywords, isWord word = true := by decide +kernel
  exact hall word h

theorem matches_of_mayBe (hword : word ∈ keywords) (h : segment.mayBe word = true) :
    segment.matches word.toList = true := by
  cases segment with
  | literal own hown =>
    obtain rfl : own = word := of_decide_eq_true h
    exact decide_eq_true (decodeUnreserved_eq_self (keyword_ne_empty hword).2)
  | param =>
    have hne : word.toList ≠ [] := (of_isPart (isPart_of_isWord (isWord_of_mem_keywords hword))).1
    simpa [Segment.matches] using hne

theorem isPart_spell (hword : word ∈ keywords) (segment : Segment) :
    isPart (spell word segment) = true := by
  rw [spell]
  split
  · exact isPart_of_isWord (isWord_of_mem_keywords hword)
  · exact isPart_plain segment

theorem matches_spell (hword : word ∈ keywords) (segment : Segment) :
    segment.matches (spell word segment).toList = true := by
  rw [spell]
  split
  case isTrue h => exact matches_of_mayBe hword h
  case isFalse => exact matches_plain segment

theorem matchesAll_map {route : List Segment} {f : Segment → String}
    (h : ∀ segment ∈ route, segment.matches (f segment).toList = true) :
    matchesAll route ((route.map f).map String.toList) = true := by
  induction route with
  | nil => rfl
  | cons segment route ih =>
    rw [List.map_cons, List.map_cons, matchesAll, h segment List.mem_cons_self,
      ih fun other hother => h other (List.mem_cons_of_mem _ hother)]
    rfl

end Spellings

/-! ## All Targets of a Route -/

section Targets

variable {router : Router} {route : List Segment} {method : String}

theorem resolveBucket_of_sameTreatment (h : SameTreatment router route method)
    {parts : List String} (hparts : ∀ part ∈ parts, isPart part = true)
    (hmatch : matchesAll route (parts.map String.toList) = true) :
    Quota.resolveBucket method.toUpper parts = defaultBucket method.toUpper := by
  obtain ⟨target, htarget, hsegments⟩ := exists_target router parts hparts hmatch
  obtain ⟨other, hother, hplain⟩ := exists_target router (route.map plain)
    (by simpa using fun segment _ => isPart_plain segment)
    (matchesAll_map fun segment _ => matches_plain segment)
  have hsame := (h target other htarget hother).1
  rw [resolveBucket, resolveBucket, hsegments, hplain] at hsame
  rw [hsame, resolveBucket_eq_default_iff]
  have hnone : ∀ word ∈ keywords, word ∉ route.map plain := by
    intro word hword hmem
    obtain ⟨segment, -, rfl⟩ := List.mem_map.mp hmem
    exact plain_notMem_keywords segment hword
  have hlast : ∀ word ∈ keywords, (route.map plain).getLast?.getD "" ≠ word := by
    rintro word hword heq
    cases hlast : (route.map plain).getLast? with
    | none => exact (keyword_ne_empty hword).1 (by simpa [hlast] using heq.symm)
    | some last =>
      rw [hlast, Option.getD_some] at heq
      exact hnone word hword (heq ▸ List.mem_of_getLast? hlast)
  refine ⟨fun hauth => hnone "auth" (by decide) (List.mem_of_getElem? hauth.2.2), .inr (.inr ?_)⟩
  exact ⟨hlast _ (by decide), hnone _ (by decide),
    fun hmem => hlast _ (List.mem_append_right _ hmem) rfl,
    fun _ word hword => hnone word (List.mem_append_right _ hword)⟩

theorem resolveBucket_spell (h : SameTreatment router route method) {word : String}
    (hword : word ∈ keywords) :
    Quota.resolveBucket method.toUpper (route.map (spell word)) = defaultBucket method.toUpper :=
  resolveBucket_of_sameTreatment h (by simpa using fun segment _ => isPart_spell hword segment)
    (matchesAll_map fun segment _ => matches_spell hword segment)

theorem mem_map_spell {word : String} (h : anyMayBe route word = true) :
    word ∈ route.map (spell word) := by
  obtain ⟨segment, hsegment, hmay⟩ := List.any_eq_true.mp h
  exact List.mem_map.mpr ⟨segment, hsegment, if_pos hmay⟩

theorem getLast_map_spell {word : String} (h : lastMayBe route word = true) :
    (route.map (spell word)).getLast?.getD "" = word := by
  rw [lastMayBe] at h
  rw [List.getLast?_map]
  cases hlast : route.getLast? with
  | none => simp [hlast] at h
  | some segment =>
    have hmay : segment.mayBe word = true := by simpa [hlast] using h
    exact if_pos hmay

theorem mayBeAuth_eq_false (h : SameTreatment router route method) : mayBeAuth route = false := by
  refine Bool.eq_false_iff.mpr fun hauth => ?_
  match route, hauth with
  | first :: second :: third :: rest, hauth =>
    simp only [mayBeAuth, Bool.and_eq_true] at hauth
    obtain ⟨⟨hfirst, hsecond⟩, hthird⟩ := hauth
    have hparts : ∀ part ∈ "api" :: "v1" :: "auth" :: rest.map plain, isPart part = true := by
      simp only [List.forall_mem_cons, List.forall_mem_map]
      exact ⟨by decide, by decide, by decide, fun segment _ => isPart_plain segment⟩
    have hmatch : matchesAll (first :: second :: third :: rest)
        (("api" :: "v1" :: "auth" :: rest.map plain).map String.toList) = true := by
      simp only [List.map_cons, matchesAll, Bool.and_eq_true]
      exact ⟨matches_of_mayBe (by decide) hfirst, matches_of_mayBe (by decide) hsecond,
        matches_of_mayBe (by decide) hthird, matchesAll_map fun segment _ => matches_plain segment⟩
    have hdefault := resolveBucket_of_sameTreatment h hparts hmatch
    exact ((resolveBucket_eq_default_iff _ _).mp hdefault).1 ⟨rfl, rfl, rfl⟩

end Targets

/-- `POST /api/v1/auth/login`. -/
def loginRoute : List Segment :=
  [.literal "api" (by decide), .literal "v1" (by decide), .literal "auth" (by decide),
    .literal "login" (by decide)]

end AudioBook.RouteBuckets
