import AudioBook.Schema.Rows
import AudioBook.Texts.UrlPaths

/-!
# The Proxy of the Web Application

`proxyToApi` joins the segments of a path, tests whether the result starts with `api/v1/`, and asks
the API for it. `fetch` resolves dot components only behind this test, so what is requested can lie
outside of `/api/v1/`.

- `proxyToApi`: what is refused, and which URL is requested.
- `reachesPublicApi_iff`: which segments reach only the public API.
-/

namespace AudioBook.Proxy

open Url

/-- What `serverConfig` says. -/
structure ServerConfig where
  apiBaseUrl : Origin
  publicOrigin : Option Text

structure Request where
  method : Text
  /-- The `Origin` header. -/
  origin : Option Text
  /-- The origin of the requested URL. -/
  urlOrigin : Text
  /-- The query of the requested URL, with its question mark. -/
  search : Text

/-- What a request comes to, until the API answers. -/
inductive Outcome
  | refused (status : ℕ) (code message : Text)
  | requested (target : Text)

/-- `ALLOWED_PATH.test(path)`. -/
def allowedPath (path : Text) : Bool := "api/v1/".toList.isPrefixOf path

def safeMethods : List Text := ["GET".toList, "HEAD".toList]

/-- Whether `assertSameOrigin` returns. -/
def isSameOrigin (config : ServerConfig) (request : Request) : Bool :=
  decide (request.method ∈ safeMethods) ||
    match request.origin with
    | none => true
    | some origin =>
        origin.isEmpty || decide (origin = config.publicOrigin.getD request.urlOrigin)

variable (config : ServerConfig) (request : Request) (token : Option Text)
  (pathSegments : List Text)

/-- The joined segments, and the query behind them. -/
def targetPath : Text := ['/'].intercalate pathSegments ++ request.search

def proxyToApi : Outcome :=
  if !allowedPath (['/'].intercalate pathSegments) then
    .refused 404 "RESOURCE_NOT_FOUND".toList
      "Only the public /api/v1 surface is reachable through this application.".toList
  else if !isSameOrigin config request then
    .refused 403 "FORBIDDEN".toList "Cross-origin request refused.".toList
  else if token.all List.isEmpty then
    .refused 401 "UNAUTHENTICATED".toList "No active session. Sign in again.".toList
  else .requested (config.apiBaseUrl.text ++ '/' :: targetPath request pathSegments)

/-- A parsed URL has the configured origin and a path that begins with `/api/v1/`. -/
def IsPublic (url : Parsed) : Prop :=
  url.scheme = config.apiBaseUrl.scheme ∧ url.authority = config.apiBaseUrl.authority ∧
    ∃ third rest, url.path = ['a', 'p', 'i'] :: ['v', '1'] :: third :: rest

/-- The request is refused, or what is requested is public. -/
def ReachesPublicApi : Prop :=
  match proxyToApi config request token pathSegments with
  | .refused _ _ _ => True
  | .requested target => IsPublic config (parse target)

/-- None of the three tests refuses the request. -/
def Admitted : Prop :=
  allowedPath (['/'].intercalate pathSegments) = true ∧ isSameOrigin config request = true ∧
    ∃ text, token = some text ∧ text ≠ []

/-- An `api` is reached from the root, a `v1` from there, and the components behind them, of which
there are some, never go back above them. -/
def Confined (components : List Text) : Prop :=
  ∃ before mid tail, components = before ++ ['a', 'p', 'i'] :: (mid ++ ['v', '1'] :: tail) ∧
    Returns moveOf before ∧ Url.Stays moveOf mid ∧ pushes moveOf mid = pops moveOf mid ∧
    Url.Stays moveOf tail ∧ tail ≠ []

variable {config request token pathSegments}

theorem proxyToApi_eq (h : Admitted config request token pathSegments) :
    proxyToApi config request token pathSegments =
      .requested (config.apiBaseUrl.text ++ '/' :: targetPath request pathSegments) := by
  obtain ⟨hpath, horigin, text, rfl, hne⟩ := h
  simp [proxyToApi, hpath, horigin, hne]

theorem reachesPublicApi_of_not_admitted (h : ¬ Admitted config request token pathSegments) :
    ReachesPublicApi config request token pathSegments := by
  unfold ReachesPublicApi proxyToApi
  split_ifs with hpath horigin htoken
  · trivial
  · trivial
  · trivial
  · refine absurd ⟨by simpa using hpath, by simpa using horigin, ?_⟩ h
    cases token with
    | none => simp at htoken
    | some text => exact ⟨text, rfl, by simpa using htoken⟩

/-- A request that is admitted stays public exactly when its components, as the URL parser reads
them, are confined. -/
theorem reachesPublicApi_iff (config : ServerConfig) (request : Request) (token : Option Text)
    (pathSegments : List Text) :
    ReachesPublicApi config request token pathSegments ↔
      (Admitted config request token pathSegments →
        Confined (pathComponents (clean ('/' :: targetPath request pathSegments)))) := by
  by_cases h : Admitted config request token pathSegments
  · rw [ReachesPublicApi, proxyToApi_eq h]
    -- scheme and authority are those of the origin, whatever the segments are
    show IsPublic config (parse (_ ++ _)) ↔ _
    rw [IsPublic, parse_append, starts_resolve_iff (by decide) (by decide)]
    simp [h, Confined]
  · exact iff_of_true (reachesPublicApi_of_not_admitted h) fun hadmitted => absurd hadmitted h

/-- `http://api.internal:3000`, and no origin of the web application. -/
def internalApi : ServerConfig where
  apiBaseUrl :=
    { scheme := "http".toList
      authority := "api.internal:3000".toList
      scheme_clean := by simp [isC0OrSpace]
      authority_clean := by simp [endsPath, isSlash, isC0OrSpace] }
  publicOrigin := none

/-- `/bff/api/v1/../../internal/v1/jobs`, asked for with a session. -/
theorem not_forall_reachesPublicApi :
    ¬ ∀ (config : ServerConfig) (request : Request) (token : Option Text)
        (pathSegments : List Text), ReachesPublicApi config request token pathSegments := by
  intro h
  have hpublic : IsPublic internalApi (parse
      (internalApi.apiBaseUrl.text ++ "/api/v1/../../internal/v1/jobs".toList)) :=
    h internalApi { method := "GET".toList, origin := none, urlOrigin := [], search := [] }
      (some ['t']) ["api".toList, "v1".toList, "..".toList, "..".toList, "internal".toList,
        "v1".toList, "jobs".toList]
  obtain ⟨-, -, third, rest, hpath⟩ := hpublic
  -- the path that is requested starts with `internal`
  have hhead : (parse (internalApi.apiBaseUrl.text ++
      "/api/v1/../../internal/v1/jobs".toList)).path.head? = some "internal".toList := by
    decide +kernel
  rw [hpath, List.head?_cons] at hhead
  exact absurd (Option.some.inj hhead) (by decide +kernel)

end AudioBook.Proxy
