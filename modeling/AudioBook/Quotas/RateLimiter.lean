import AudioBook.Books.RouteBuckets
import AudioBook.Concurrent.Machine
import AudioBook.Concurrent.Tickets
import AudioBook.Keys.Segments
import AudioBook.Texts.Json

/-!
# The Rate Limiter

`RateLimiter.consume` and `RateLimitGuard`: fixed-window counters in Redis, which all replicas of the
API share. A call reads the clock of its replica and sends one pipeline; Redis runs the commands of a
pipeline one by one, and those of other calls between them. A call that gets no answer, or the error
of one command, lets its request pass uncounted.

Main results:

- `rateLimitKey_inj`: a key tells its bucket, dimension and window, whatever the id contains.
- `admitted_le_limit`: what the counters admit in a window, and in any time as long as a window.
- `over_of_refused`: who is refused was over a limit, and may come back when the next window starts.
-/

namespace AudioBook.RateLimiter

open Concurrent RouteBuckets Quota

/-! ## Calls -/

inductive DimensionKind
  | user
  | tenant
  | ip
  deriving DecidableEq, Repr

structure RateLimitDimension where
  kind : DimensionKind
  id : Text
  limit : ℕ
  deriving DecidableEq, Repr

structure RateLimitDecision where
  allowed : Bool
  limit : ℕ
  remaining : ℕ
  /-- Unix seconds at which the binding window resets. -/
  resetAt : ℕ
  retryAfterSeconds : ℕ
  /-- Redis could not be reached, and the request is allowed for that. -/
  degraded : Bool
  deriving DecidableEq, Repr

/-- `config.rateLimit`, enabled. -/
structure RateLimitConfig where
  windowSeconds : ℕ
  windowSeconds_pos : 0 < windowSeconds
  buckets : RateLimitBucket → ℕ

/-- What the guard reads of a request. -/
structure GuardedRequest where
  method : String
  url : Text
  /-- `sub` and `tenantId` of the principal. -/
  principal : Option (Text × Text)
  ip : Text

def tenantLimitMultiplier : ℕ := 10

def bucketName : RateLimitBucket → String
  | .read => "read"
  | .write => "write"
  | .upload => "upload"
  | .expensive => "expensive"
  | .accessUrl => "access_url"
  | .auth => "auth"

def DimensionKind.name : DimensionKind → String
  | user => "user"
  | tenant => "tenant"
  | ip => "ip"

def rateLimitKey (bucket : RateLimitBucket) (kind : DimensionKind) (id : Text) (windowIndex : ℕ) :
    Text :=
  "ratelimit:".toList ++ ((bucketName bucket).toList ++
    ':' :: (kind.name.toList ++ ':' :: (id ++ ':' :: Nat.toDigits 10 windowIndex)))

inductive RedisCommand
  | incr (key : Text)
  | expire (key : Text) (seconds : ℕ)
  deriving DecidableEq

/-- A call of `consume`, with the answers of Redis so far; the answer of a command that failed is
`none`. -/
structure Consumption where
  bucket : RateLimitBucket
  dimensions : List RateLimitDimension
  nowSeconds : ℕ
  results : List (Option ℕ) := []
  decision : Option RateLimitDecision := none

namespace RateLimitConfig

variable (config : RateLimitConfig)

/-- The limit of a dimension in a bucket. -/
def limitOf (bucket : RateLimitBucket) : DimensionKind → ℕ
  | .tenant => config.buckets bucket * tenantLimitMultiplier
  | _ => config.buckets bucket

/-- `dimensions` of `canActivate`. -/
def dimensions (request : GuardedRequest) : List RateLimitDimension :=
  let bucket := resolveBucket request.method request.url
  (match request.principal with
    | some (sub, tenantId) =>
        [⟨.user, sub, config.limitOf bucket .user⟩, ⟨.tenant, tenantId, config.limitOf bucket .tenant⟩]
    | none => []) ++
    if request.ip = [] then [] else [⟨.ip, request.ip, config.limitOf bucket .ip⟩]

end RateLimitConfig

namespace Consumption

variable (config : RateLimitConfig) (call : Consumption)

def windowIndex : ℕ := call.nowSeconds / config.windowSeconds

def resetAt : ℕ := (call.windowIndex config + 1) * config.windowSeconds

def key (d : RateLimitDimension) : Text :=
  rateLimitKey call.bucket d.kind d.id (call.windowIndex config)

def pipeline : List RedisCommand :=
  call.dimensions.flatMap fun d =>
    [.incr (call.key config d), .expire (call.key config d) (config.windowSeconds + 1)]

/-- The counter of a dimension: INCRs are at even indices. -/
def count (i : ℕ) : Option ℕ := call.results[i * 2]?.join

/-- The limit and the headroom of the dimension with the least headroom. -/
def binding : Option (ℕ × ℕ) :=
  call.dimensions.zipIdx.foldl (fun binding d =>
    let remaining := d.1.limit - (call.count d.2).getD 0
    if binding.all fun b => decide (remaining < b.2) then some (d.1.limit, remaining) else binding)
    none

def failOpen : RateLimitDecision where
  allowed := true
  limit := (call.dimensions.head?.map RateLimitDimension.limit).getD 0
  remaining := (call.dimensions.head?.map RateLimitDimension.limit).getD 0
  resetAt := call.resetAt config
  retryAfterSeconds := 0
  degraded := true

/-- The decision on the answers of Redis. -/
def judge : RateLimitDecision :=
  if call.dimensions.zipIdx.all fun d => (call.count d.2).isSome then {
    allowed := call.dimensions.zipIdx.all fun d => decide ((call.count d.2).getD 0 ≤ d.1.limit)
    limit := (call.binding.map Prod.fst).getD 0
    remaining := (call.binding.map Prod.snd).getD 0
    resetAt := call.resetAt config
    retryAfterSeconds := max 1 (call.resetAt config - call.nowSeconds)
    degraded := false }
  else call.failOpen config

/-- Counted, and allowed. -/
def admitted : Bool := call.decision.any fun d => d.allowed && !d.degraded

/-- `RATE_LIMITED`. -/
def refused : Bool := call.decision.any fun d => !d.allowed

/-- The call counts in a bucket for a user, a tenant or an address. -/
def countsFor (bucket : RateLimitBucket) (kind : DimensionKind) (id : Text) : Bool :=
  decide (call.bucket = bucket) && call.dimensions.any fun d => decide (d.kind = kind ∧ d.id = id)

end Consumption

/-! ## Redis -/

/-- A key's value, and the millisecond at which it expires. -/
structure Counter where
  value : ℕ
  expiresAt : Option ℕ

abbrev Keyspace := Text → Option Counter

/-- The counter of a key that has not expired. -/
def Keyspace.live (keys : Keyspace) (now : ℕ) (key : Text) : Option Counter :=
  (keys key).filter fun counter => counter.expiresAt.all fun e => decide (now < e)

def RedisCommand.run (now : ℕ) (keys : Keyspace) : RedisCommand → ℕ × Keyspace
  | incr key =>
      let counter := (keys.live now key).getD ⟨0, none⟩
      (counter.value + 1, Function.update keys key (some ⟨counter.value + 1, counter.expiresAt⟩))
  | expire key seconds =>
      match keys.live now key with
      | none => (0, keys)
      | some counter =>
          (1, Function.update keys key (some ⟨counter.value, some (now + seconds * 1000)⟩))

/-! ## The System -/

structure LimiterState where
  /-- The clock of Redis, in milliseconds. -/
  now : ℕ
  keys : Keyspace
  calls : List Consumption

inductive LimiterEvent
  | tick (ms : ℕ)
  /-- A replica reads `Date.now()` and consumes. -/
  | canActivate (request : GuardedRequest) (dateNow : ℕ)
  /-- Redis comes to the next command of a call. -/
  | command (i : ℕ) (fails : Bool)
  /-- A call gets the answers to its pipeline, or gives up. -/
  | exec (i : ℕ) (fails : Bool)

variable (config : RateLimitConfig)

def step : LimiterEvent → LimiterState → Option LimiterState
  | .tick ms, s => some { s with now := s.now + ms }
  | .canActivate request dateNow, s =>
      if config.dimensions request = [] then some s
      else some { s with calls := s.calls ++ [{
        bucket := resolveBucket request.method request.url
        dimensions := config.dimensions request
        nowSeconds := dateNow / 1000 }] }
  | .command i fails, s =>
      s.calls[i]?.bind fun call => (call.pipeline config)[call.results.length]?.map fun command =>
        if fails then { s with calls := s.calls.set i { call with results := call.results ++ [none] } }
        else { s with
          keys := (command.run s.now s.keys).2
          calls := s.calls.set i
            { call with results := call.results ++ [some (command.run s.now s.keys).1] } }
  | .exec i fails, s =>
      s.calls[i]?.bind fun call =>
        if call.decision.isSome then none
        else if fails then
          some { s with calls := s.calls.set i { call with decision := some (call.failOpen config) } }
        else if call.results.length = (call.pipeline config).length then
          some { s with calls := s.calls.set i { call with decision := some (call.judge config) } }
        else none

def limiter : Machine LimiterState LimiterEvent where
  init s := s.keys = (fun _ => none) ∧ s.calls = []
  step := step config

/-! ## Keys -/

theorem rateLimitKey_inj {bucket bucket' : RateLimitBucket} {kind kind' : DimensionKind}
    {id id' : Text} {w w' : ℕ} :
    rateLimitKey bucket kind id w = rateLimitKey bucket' kind' id' w' ↔
      bucket = bucket' ∧ kind = kind' ∧ id = id' ∧ w = w' := by
  have hbucket : ∀ b, ':' ∉ (bucketName b).toList := by
    intro b
    cases b <;> simp [bucketName]
  have hkind : ∀ k : DimensionKind, ':' ∉ k.name.toList := by
    intro k
    cases k <;> simp [DimensionKind.name]
  have hdigits : ∀ n, ':' ∉ (Nat.toDigits 10 n).reverse := fun n hmem =>
    absurd (Nat.isDigit_of_mem_toDigits (by decide) (by decide) (List.mem_reverse.mp hmem))
      (by decide)
  constructor
  · intro h
    change "ratelimit:".toList ++ _ = "ratelimit:".toList ++ _ at h
    obtain ⟨hb, hrest⟩ := append_cons_inj (hbucket bucket) (hbucket bucket')
      (List.append_cancel_left h)
    obtain ⟨hk, hrest⟩ := append_cons_inj (hkind kind) (hkind kind') hrest
    -- The id may contain the separator, so the rest is read from its end.
    have hreverse := congrArg List.reverse hrest
    rw [List.reverse_append, List.reverse_append, List.reverse_cons, List.reverse_cons,
      List.append_assoc, List.append_assoc] at hreverse
    obtain ⟨hw, hid⟩ := append_cons_inj (hdigits w) (hdigits w') hreverse
    refine ⟨?_, ?_, List.reverse_injective hid, Keys.toDigits_inj (List.reverse_injective hw)⟩
    · have hname := String.toList_injective hb
      cases bucket <;> cases bucket' <;> simp_all [bucketName]
    · have hname := String.toList_injective hk
      cases kind <;> cases kind' <;> simp_all [DimensionKind.name]
  · rintro ⟨hb, hk, hid, hw⟩
    rw [hb, hk, hid, hw]

/-! ## Calls -/

namespace Consumption

variable {config} {call : Consumption}

/-- The call is one of the guard, and decided on its answers. -/
structure Sound (config : RateLimitConfig) (call : Consumption) : Prop where
  request : ∃ request : GuardedRequest,
    call.bucket = RouteBuckets.resolveBucket request.method request.url ∧
    call.dimensions = config.dimensions request
  decided : ∀ d, call.decision = some d → d = call.failOpen config ∨
    call.results.length = (call.pipeline config).length ∧ d = call.judge config

/-- What a call got for a key. -/
def taken (config : RateLimitConfig) (key : Text) (call : Consumption) : List ℕ :=
  ((call.pipeline config).zip call.results).filterMap fun p => if p.1 = .incr key then p.2 else none

theorem getElem?_pipeline (i : ℕ) :
    (call.pipeline config)[i * 2]? =
      call.dimensions[i]?.map fun d => .incr (call.key config d) := by
  rw [pipeline]
  induction call.dimensions generalizing i with
  | nil => simp
  | cons d ds ih =>
    cases i with
    | zero => rfl
    | succ i => simpa [Nat.succ_mul] using ih i

theorem mem_taken_of_count {d : RateLimitDimension} {i n : ℕ} (hd : call.dimensions[i]? = some d)
    (hn : call.count i = some n) : n ∈ call.taken config (call.key config d) := by
  have hresult : call.results[i * 2]? = some (some n) := Option.join_eq_some_iff.mp hn
  have hcommand : (call.pipeline config)[i * 2]? = some (.incr (call.key config d)) := by
    rw [getElem?_pipeline, hd, Option.map_some]
  refine List.mem_filterMap.mpr ⟨(.incr (call.key config d), some n), ?_, if_pos rfl⟩
  exact List.mem_of_getElem? (List.getElem?_zip_eq_some.mpr ⟨hcommand, hresult⟩)

theorem taken_append {command : RedisCommand} {key : Text} (r : Option ℕ)
    (h : (call.pipeline config)[call.results.length]? = some command) :
    taken config key { call with results := call.results ++ [r] } =
      call.taken config key ++ if command = .incr key then r.toList else [] := by
  have hzip : ∀ (cs : List RedisCommand) (rs : List (Option ℕ)), cs[rs.length]? = some command →
      cs.zip (rs ++ [r]) = cs.zip rs ++ [(command, r)] := by
    intro cs rs
    induction rs generalizing cs with
    | nil => cases cs <;> simp_all
    | cons r' rs ih => cases cs <;> simp_all
  change List.filterMap _ ((call.pipeline config).zip (call.results ++ [r])) = _
  rw [hzip _ _ h, List.filterMap_append]
  congr 1
  split <;> cases r <;> simp_all

theorem exists_of_mem_pipeline {command : RedisCommand} (h : command ∈ call.pipeline config) :
    ∃ d ∈ call.dimensions, command = .incr (call.key config d) ∨
      command = .expire (call.key config d) (config.windowSeconds + 1) := by
  obtain ⟨d, hd, hmem⟩ := List.mem_flatMap.mp h
  exact ⟨d, hd, by simpa using hmem⟩

/-- A call counts once at most for a key. -/
theorem Sound.length_taken_le (h : call.Sound config) (key : Text) :
    (call.taken config key).length ≤ 1 := by
  obtain ⟨request, -, hdims⟩ := h.request
  have hzip : ∀ (cs : List RedisCommand) (rs : List (Option ℕ)),
      ((cs.zip rs).filterMap fun p => if p.1 = .incr key then p.2 else none).length ≤
        cs.count (.incr key) := by
    intro cs rs
    induction cs generalizing rs with
    | nil => simp
    | cons c cs ih =>
      cases rs with
      | nil => simp
      | cons r rs =>
        rw [List.zip_cons_cons, List.filterMap_cons]
        by_cases hc : c = .incr key
        · rw [if_pos hc, hc, List.count_cons_self]
          cases r
          · exact (ih rs).trans (Nat.le_succ _)
          · exact Nat.succ_le_succ (ih rs)
        · rw [if_neg hc, List.count_cons_of_ne hc]
          exact ih rs
  refine (hzip _ _).trans ?_
  rw [pipeline, hdims, RateLimitConfig.dimensions]
  -- The dimensions are of different kinds, and so are their keys.
  have hne : ∀ {d d' : RateLimitDimension}, call.key config d = call.key config d' →
      d.kind = d'.kind := fun heq => (rateLimitKey_inj.mp heq).2.1
  rcases request.principal with _ | ⟨sub, tenantId⟩ <;> split_ifs <;>
    simp only [List.nil_append, List.cons_append, List.flatMap_nil, List.flatMap_cons, List.count_nil,
      List.count_cons, beq_iff_eq, RedisCommand.incr.injEq, reduceCtorEq] <;>
    grind

theorem Sound.limit_eq (h : call.Sound config) {d : RateLimitDimension} (hd : d ∈ call.dimensions) :
    d.limit = config.limitOf call.bucket d.kind := by
  obtain ⟨request, hbucket, hdims⟩ := h.request
  rw [hdims, RateLimitConfig.dimensions, ← hbucket] at hd
  rcases request.principal with _ | ⟨sub, tenantId⟩ <;> split_ifs at hd <;> simp at hd <;> grind

theorem Sound.of_admitted (h : call.Sound config) (hadmitted : call.admitted)
    {d : RateLimitDimension} (hd : d ∈ call.dimensions) :
    ∃ n ∈ call.taken config (call.key config d), n ≤ d.limit := by
  obtain ⟨decision, hdecision, hallowed⟩ := Option.any_eq_true .. |>.mp hadmitted
  obtain ⟨i, hi⟩ := List.mem_iff_getElem?.mp hd
  obtain rfl | ⟨-, rfl⟩ := h.decided decision hdecision
  · simp [failOpen] at hallowed
  · rw [judge] at hallowed
    split_ifs at hallowed with hanswered
    · have hmem : (d, i) ∈ call.dimensions.zipIdx := List.mk_mem_zipIdx_iff_getElem?.mpr hi
      obtain ⟨n, hn⟩ := Option.isSome_iff_exists.mp (List.all_eq_true.mp hanswered _ hmem)
      rw [Bool.and_eq_true, List.all_eq_true] at hallowed
      have hle := of_decide_eq_true (hallowed.1 _ hmem)
      rw [hn, Option.getD_some] at hle
      exact ⟨n, mem_taken_of_count hi hn, hle⟩
    · simp [failOpen] at hallowed

theorem Sound.of_refused (h : call.Sound config) (hrefused : call.refused) :
    ∃ decision, call.decision = some decision ∧
      decision.retryAfterSeconds = max 1 (call.resetAt config - call.nowSeconds) ∧
      ∃ d ∈ call.dimensions, ∃ n ∈ call.taken config (call.key config d), d.limit < n := by
  obtain ⟨decision, hdecision, hallowed⟩ := Option.any_eq_true .. |>.mp hrefused
  obtain rfl | ⟨-, rfl⟩ := h.decided decision hdecision
  · simp [failOpen] at hallowed
  · rw [judge] at hallowed
    split_ifs at hallowed with hanswered
    · rw [Bool.not_eq_true', List.all_eq_false] at hallowed
      obtain ⟨⟨d, i⟩, hmem, hover⟩ := hallowed
      obtain ⟨n, hn⟩ := Option.isSome_iff_exists.mp (List.all_eq_true.mp hanswered _ hmem)
      have hi := List.mk_mem_zipIdx_iff_getElem?.mp hmem
      rw [hn, Option.getD_some, decide_eq_true_eq, not_le] at hover
      exact ⟨_, hdecision, by rw [judge, if_pos hanswered], d, List.mem_of_getElem? hi, n,
        mem_taken_of_count hi hn, hover⟩
    · simp [failOpen] at hallowed

end Consumption

/-! ## Steps -/

section steps

variable {config} {s s' : LimiterState} {l : LimiterEvent}

/-- What all calls got for a key. -/
def LimiterState.taken (config : RateLimitConfig) (key : Text) (s : LimiterState) : List ℕ :=
  s.calls.flatMap (Consumption.taken config key)

theorem step_cases (h : step config l s = some s') :
    s'.keys = s.keys ∧ (∀ key, (s'.taken config key).Perm (s.taken config key)) ∨
      ∃ i call command, l = .command i false ∧ s.calls[i]? = some call ∧
        command ∈ call.pipeline config ∧ s'.keys = (command.run s.now s.keys).2 ∧
        ∀ key, (s'.taken config key).Perm
          ((if command = .incr key then [(command.run s.now s.keys).1] else []) ++
            s.taken config key) := by
  cases l with
  | tick ms =>
    obtain rfl := Option.some.inj h
    exact .inl ⟨rfl, fun _ => .refl _⟩
  | canActivate request dateNow =>
    rw [step] at h
    split_ifs at h <;> obtain rfl := Option.some.inj h
    · exact .inl ⟨rfl, fun _ => .refl _⟩
    · refine .inl ⟨rfl, fun key => ?_⟩
      simp [LimiterState.taken, Consumption.taken]
  | command i fails =>
    obtain ⟨call, hcall, h⟩ := Option.bind_eq_some_iff.mp h
    obtain ⟨command, hcommand, rfl⟩ := Option.map_eq_some_iff.mp h
    have htaken := fun key r => flatMap_set_perm (Consumption.taken config key) hcall
      (Consumption.taken_append r hcommand)
    cases fails
    · exact .inr ⟨i, call, command, rfl, hcall, List.mem_of_getElem? hcommand, rfl,
        fun key => htaken key (some _)⟩
    · refine .inl ⟨rfl, fun key => (htaken key none).trans ?_⟩
      simp [LimiterState.taken]
  | exec i fails =>
    obtain ⟨call, hcall, h⟩ := Option.bind_eq_some_iff.mp h
    have htaken : ∀ key d, Consumption.taken config key { call with decision := d } =
        call.taken config key ++ [] := fun _ _ => (List.append_nil _).symm
    split_ifs at h <;> obtain rfl := Option.some.inj h <;>
      exact .inl ⟨rfl, fun key => flatMap_set_perm _ hcall (htaken key _)⟩

theorem step_sound (hs : ∀ call ∈ s.calls, call.Sound config) (h : step config l s = some s') :
    ∀ call ∈ s'.calls, call.Sound config := by
  cases l with
  | tick ms =>
    obtain rfl := Option.some.inj h
    exact hs
  | canActivate request dateNow =>
    rw [step] at h
    split_ifs at h <;> obtain rfl := Option.some.inj h
    · exact hs
    · intro call hcall
      obtain hcall | hcall := List.mem_append.mp hcall
      · exact hs call hcall
      · obtain rfl := List.mem_singleton.mp hcall
        exact ⟨⟨request, rfl, rfl⟩, by simp⟩
  | command i fails =>
    obtain ⟨call, hcall, h⟩ := Option.bind_eq_some_iff.mp h
    obtain ⟨command, hcommand, rfl⟩ := Option.map_eq_some_iff.mp h
    have hsound := hs call (List.mem_of_getElem? hcall)
    -- A call that was decided on its answers has no command left.
    have hfail : ∀ r, Consumption.Sound config { call with results := call.results ++ [r] } := by
      refine fun r => ⟨hsound.request, fun d hd => ?_⟩
      obtain hd | ⟨hlen, -⟩ := hsound.decided d hd
      · exact .inl hd
      · rw [List.getElem?_eq_none hlen.ge] at hcommand
        cases hcommand
    intro call' hcall'
    cases fails <;> obtain hcall' | rfl := List.mem_or_eq_of_mem_set hcall' <;>
      first | exact hs call' hcall' | exact hfail _
  | exec i fails =>
    obtain ⟨call, hcall, h⟩ := Option.bind_eq_some_iff.mp h
    have hsound := hs call (List.mem_of_getElem? hcall)
    split_ifs at h with _ _ hlen <;> obtain rfl := Option.some.inj h <;> intro call' hcall' <;>
      obtain hcall' | rfl := List.mem_or_eq_of_mem_set hcall'
    · exact hs call' hcall'
    · exact ⟨hsound.request, fun d hd => .inl (Option.some.inj hd).symm⟩
    · exact hs call' hcall'
    · exact ⟨hsound.request, fun d hd => .inr ⟨hlen, (Option.some.inj hd).symm⟩⟩

theorem sound_of_reachable {allows : LimiterEvent → LimiterState → Prop}
    (hs : (limiter config).Reachable allows s) : ∀ call ∈ s.calls, call.Sound config :=
  hs.invariant (fun s hinit => by simp [hinit.2]) fun _ _ _ h _ => step_sound h

theorem RedisCommand.run_eq_some {command : RedisCommand} {now : ℕ} {keys : Keyspace} {key : Text}
    {counter : Counter} (h : (command.run now keys).2 key = some counter) :
    (command = .incr key ∧ counter.value = (command.run now keys).1 ∨
      command ≠ .incr key ∧ ∃ old, keys key = some old ∧ counter.value = old.value) ∧
    ∀ e, counter.expiresAt = some e → (∃ old, keys key = some old ∧ old.expiresAt = some e) ∨
      ∃ seconds, command = .expire key seconds ∧ e = now + seconds * 1000 := by
  cases command with
  | incr key' =>
    dsimp only [run] at h ⊢
    rw [Function.update_apply] at h
    split_ifs at h with hkey
    · obtain rfl := Option.some.inj h
      refine ⟨.inl ⟨by rw [hkey], rfl⟩, fun e he => .inl ?_⟩
      cases hlive : keys.live now key' with
      | none => simp [hlive] at he
      | some old =>
        rw [hlive] at he
        exact ⟨old, hkey ▸ (Option.filter_eq_some_iff.mp hlive).1, he⟩
    · exact ⟨.inr ⟨fun heq => hkey (RedisCommand.incr.inj heq).symm, counter, h, rfl⟩,
        fun e he => .inl ⟨counter, h, he⟩⟩
  | expire key' seconds =>
    rw [run] at h
    split at h
    · exact ⟨.inr ⟨by simp, counter, h, rfl⟩, fun e he => .inl ⟨counter, h, he⟩⟩
    · rename_i old hlive
      dsimp only at h
      rw [Function.update_apply] at h
      split_ifs at h with hkey
      · obtain rfl := Option.some.inj h
        exact ⟨.inr ⟨by simp, old, hkey ▸ (Option.filter_eq_some_iff.mp hlive).1, rfl⟩,
          fun e he => .inr ⟨seconds, by rw [hkey], (Option.some.inj he).symm⟩⟩
      · exact ⟨.inr ⟨by simp, counter, h, rfl⟩, fun e he => .inl ⟨counter, h, he⟩⟩

theorem RedisCommand.exists_run {command : RedisCommand} {now : ℕ} {keys : Keyspace} {key : Text}
    {old : Counter} (h : keys key = some old)
    (hlive : ∀ key, command = .incr key → keys.live now key = keys key) :
    ∃ counter, (command.run now keys).2 key = some counter ∧ old.value ≤ counter.value := by
  cases command with
  | incr key' =>
    obtain rfl | hne := eq_or_ne key key'
    · refine ⟨_, Function.update_self .., ?_⟩
      simp [hlive key rfl, h]
    · exact ⟨old, (Function.update_of_ne hne ..).trans h, le_rfl⟩
  | expire key' seconds =>
    rw [run]
    split
    · exact ⟨old, h, le_rfl⟩
    · rename_i counter hcounter
      obtain rfl | hne := eq_or_ne key key'
      · obtain rfl := Option.some.inj (h.symm.trans (Option.filter_eq_some_iff.mp hcounter).1)
        exact ⟨_, Function.update_self .., le_rfl⟩
      · exact ⟨old, (Function.update_of_ne hne ..).trans h, le_rfl⟩

/-! ## Who Is Refused -/

/-- No number is above how many were handed out. -/
def Counted (config : RateLimitConfig) (s : LimiterState) : Prop :=
  ∀ key, (∀ counter, s.keys key = some counter → counter.value ≤ (s.taken config key).length) ∧
    ∀ n ∈ s.taken config key, n ≤ (s.taken config key).length

theorem step_counted (hs : Counted config s) (h : step config l s = some s') : Counted config s' := by
  intro key
  obtain ⟨hvalue, htaken⟩ := hs key
  obtain ⟨hkeys, hperm⟩ | ⟨i, call, command, -, -, -, hkeys, hperm⟩ := step_cases h
  · rw [hkeys, (hperm key).length_eq]
    exact ⟨hvalue, fun n hn => htaken n ((hperm key).mem_iff.mp hn)⟩
  · have hlen := (hperm key).length_eq
    rw [List.length_append] at hlen
    -- The number handed out is one above the value of the key, or one.
    have hnext : command = .incr key → (command.run s.now s.keys).1 ≤ (s.taken config key).length + 1 := by
      rintro rfl
      cases hlive : s.keys.live s.now key with
      | none => simp [RedisCommand.run, hlive]
      | some counter =>
        have := hvalue counter (Option.filter_eq_some_iff.mp hlive).1
        simpa [RedisCommand.run, hlive] using this
    constructor
    · intro counter hcounter
      rw [hkeys] at hcounter
      obtain ⟨⟨hcommand, hv⟩ | ⟨hcommand, old, hold, hv⟩, -⟩ := RedisCommand.run_eq_some hcounter
      · rw [if_pos hcommand, List.length_singleton] at hlen
        have := hnext hcommand
        omega
      · have := hvalue old hold
        omega
    · intro n hn
      obtain hn | hn := List.mem_append.mp ((hperm key).mem_iff.mp hn)
      · split_ifs at hn hlen with hcommand
        · have := hnext hcommand
          rw [List.length_singleton] at hlen
          rw [List.mem_singleton] at hn
          omega
        · cases hn
      · have := htaken n hn
        omega

/-- Who is refused was over a limit: so many requests were made in the window of that user, tenant or
address. They may come back when the next window starts. -/
theorem over_of_refused (hs : (limiter config).Reachable Machine.anyEvent s) {call : Consumption}
    (hcall : call ∈ s.calls) (hrefused : call.refused) :
    (∃ d ∈ call.dimensions, config.limitOf call.bucket d.kind <
      (s.calls.filter fun c => c.countsFor call.bucket d.kind d.id &&
        decide (c.windowIndex config = call.windowIndex config)).length) ∧
    ∃ decision, call.decision = some decision ∧ 0 < decision.retryAfterSeconds ∧
      decision.retryAfterSeconds ≤ config.windowSeconds ∧
      call.nowSeconds + decision.retryAfterSeconds =
        (call.windowIndex config + 1) * config.windowSeconds := by
  have hsound := sound_of_reachable hs
  have hcounted : Counted config s := hs.invariant (fun s hinit key => by
    simp [hinit.1, LimiterState.taken, hinit.2]) fun _ _ _ h _ => step_counted h
  obtain ⟨decision, hdecision, hretry, d, hd, n, hn, hover⟩ := (hsound call hcall).of_refused hrefused
  constructor
  · refine ⟨d, hd, (hsound call hcall).limit_eq hd ▸ hover.trans_le ?_⟩
    refine ((hcounted _).2 n (List.mem_flatMap.mpr ⟨call, hcall, hn⟩)).trans ?_
    refine length_flatMap_le_length_filter (fun c hc => (hsound c hc).length_taken_le _) ?_
    -- A call that has a number of the key counts for the same dimension in the same window.
    intro c _ hne
    obtain ⟨m, hm⟩ := List.exists_mem_of_ne_nil _ hne
    obtain ⟨⟨command, r⟩, hzip, hr⟩ := List.mem_filterMap.mp hm
    split_ifs at hr with hincr
    obtain ⟨d', hd', heq | heq⟩ := Consumption.exists_of_mem_pipeline (List.of_mem_zip hzip).1
    · obtain ⟨hb, hk, hid, hw⟩ := rateLimitKey_inj.mp (RedisCommand.incr.inj (heq.symm.trans hincr))
      simp only [Consumption.countsFor, Bool.and_eq_true, decide_eq_true_eq, List.any_eq_true]
      exact ⟨⟨hb, d', hd', hk, hid⟩, hw⟩
    · exact absurd (heq.symm.trans hincr) (by simp)
  · refine ⟨decision, hdecision, ?_⟩
    have hmod := Nat.div_add_mod' call.nowSeconds config.windowSeconds
    have hlt := Nat.mod_lt call.nowSeconds config.windowSeconds_pos
    rw [Consumption.resetAt, Consumption.windowIndex, Nat.succ_mul] at hretry
    rw [Consumption.windowIndex, Nat.succ_mul]
    omega

/-! ## Who Is Admitted -/

/-- Redis runs a command at most `late` milliseconds after the window of its call, by a clock that is
at most `early` milliseconds behind that of the call. -/
def Prompt (config : RateLimitConfig) (early late : ℕ) : LimiterEvent → LimiterState → Prop
  | .command i _, s => s.calls[i]?.all fun call => decide
      (call.windowIndex config * config.windowSeconds * 1000 ≤ s.now + early ∧
        s.now < call.resetAt config * 1000 + late)
  | _, _ => True

instance (early late : ℕ) : ∀ l s, Decidable (Prompt config early late l s)
  | .tick _, _ => isTrue trivial
  | .canActivate _ _, _ => isTrue trivial
  | .command _ _, _ => inferInstanceAs (Decidable (_ = true))
  | .exec _ _, _ => isTrue trivial

/-- The numbers of a key are distinct and its value has reached them all; a key lasts until the last
command that may ask for it. -/
structure Numbered (config : RateLimitConfig) (late : ℕ) (s : LimiterState) : Prop where
  nodup : ∀ key, (s.taken config key).Nodup
  reached : ∀ key, ∀ n ∈ s.taken config key, 0 < n ∧
    ∃ counter, s.keys key = some counter ∧ n ≤ counter.value
  lasts : ∀ bucket kind id w counter e, s.keys (rateLimitKey bucket kind id w) = some counter →
    counter.expiresAt = some e → (w + 1) * config.windowSeconds * 1000 + late ≤ e

theorem step_numbered {early late : ℕ} (hslack : early + late ≤ 1000)
    (hs : Numbered config late s) (hprompt : Prompt config early late l s)
    (h : step config l s = some s') : Numbered config late s' := by
  obtain ⟨hkeys, hperm⟩ | ⟨i, call, command, rfl, hcall, hmem, hkeys, hperm⟩ := step_cases h
  · constructor
    · exact fun key => (hperm key).nodup_iff.mpr (hs.nodup key)
    · intro key n hn
      rw [hkeys]
      exact hs.reached key n ((hperm key).mem_iff.mp hn)
    · rw [hkeys]
      exact hs.lasts
  rw [Prompt, hcall, Option.all_some, decide_eq_true_eq] at hprompt
  obtain ⟨d, -, hcommand⟩ := Consumption.exists_of_mem_pipeline hmem
  -- The key of an INCR has not expired, so it goes on from its value.
  have hlive : ∀ key, command = .incr key → s.keys.live s.now key = s.keys key := by
    rintro key rfl
    obtain rfl : key = call.key config d := by simpa using hcommand
    cases hcounter : s.keys (call.key config d) with
    | none => rw [Keyspace.live, hcounter, Option.filter_none]
    | some counter =>
      refine Option.filter_eq_some_iff.mpr ⟨hcounter, ?_⟩
      refine Option.all_eq_true _ _ |>.mpr fun e he => decide_eq_true ?_
      exact hprompt.2.trans_le (hs.lasts _ _ _ _ counter e hcounter he)
  have hnew : ∀ key, command = .incr key → ∀ n ∈ s.taken config key,
      n < (command.run s.now s.keys).1 := by
    rintro key rfl n hn
    obtain ⟨-, counter, hcounter, hle⟩ := hs.reached key n hn
    simpa [RedisCommand.run, hlive key rfl, hcounter] using Nat.lt_succ_of_le hle
  constructor
  · intro key
    rw [(hperm key).nodup_iff]
    split_ifs with hincr
    · exact List.nodup_cons.mpr ⟨fun hv => (hnew key hincr _ hv).false, hs.nodup key⟩
    · exact hs.nodup key
  · intro key n hn
    rw [hkeys]
    obtain hn | hn := List.mem_append.mp ((hperm key).mem_iff.mp hn)
    · split_ifs at hn with hincr
      · obtain rfl := List.mem_singleton.mp hn
        subst hincr
        exact ⟨Nat.succ_pos _, _, Function.update_self .., le_rfl⟩
      · cases hn
    · obtain ⟨hpos, old, hold, hle⟩ := hs.reached key n hn
      obtain ⟨counter, hcounter, hvalue⟩ := RedisCommand.exists_run hold hlive
      exact ⟨hpos, counter, hcounter, hle.trans hvalue⟩
  · intro bucket kind id w counter e hcounter he
    obtain ⟨old, hold, hold'⟩ | ⟨seconds, hexpire, rfl⟩ :=
      (RedisCommand.run_eq_some (hkeys ▸ hcounter)).2 e he
    · exact hs.lasts _ _ _ _ old e hold hold'
    · -- The key is one of this window, whose start is not far ahead.
      obtain ⟨hkey, rfl⟩ : rateLimitKey bucket kind id w = call.key config d ∧
          seconds = config.windowSeconds + 1 := by simpa [hexpire] using hcommand
      obtain ⟨-, -, -, rfl⟩ := rateLimitKey_inj.mp hkey
      have hlate : ∀ {start now W : ℕ}, start * 1000 ≤ now + early →
          (start + W) * 1000 + late ≤ now + (W + 1) * 1000 := by omega
      exact Nat.succ_mul .. ▸ hlate hprompt.1

theorem length_admitted_le {early late : ℕ} (hslack : early + late ≤ 1000)
    (hs : (limiter config).Reachable (Prompt config early late) s) (bucket : RateLimitBucket)
    (kind : DimensionKind) (id : Text) (w : ℕ) :
    (s.calls.filter fun c => c.admitted && c.countsFor bucket kind id &&
      decide (c.windowIndex config = w)).length ≤ config.limitOf bucket kind := by
  have hnumbered : Numbered config late s := by
    refine hs.invariant (fun s hinit => ?_) fun _ _ _ hs hprompt => step_numbered hslack hs hprompt
    constructor <;> simp [LimiterState.taken, hinit.1, hinit.2]
  refine length_filter_le_of_tickets (hnumbered.nodup (rateLimitKey bucket kind id w))
    (fun n hn => (hnumbered.reached _ n hn).1) fun c hc hp => ?_
  simp only [Bool.and_eq_true, decide_eq_true_eq, Consumption.countsFor, List.any_eq_true] at hp
  obtain ⟨⟨hadmitted, rfl, d, hd, rfl, rfl⟩, rfl⟩ := hp
  have hsound := sound_of_reachable hs c hc
  obtain ⟨n, hn, hle⟩ := hsound.of_admitted hadmitted hd
  exact ⟨n, hn, hsound.limit_eq hd ▸ hle⟩

/-- However the calls of the replicas interleave, the counters admit no more in a window than the
limit of a user, a tenant or an address, and no more than twice the limit in any time as long. -/
theorem admitted_le_limit {early late : ℕ} (hslack : early + late ≤ 1000)
    (hs : (limiter config).Reachable (Prompt config early late) s) (bucket : RateLimitBucket)
    (kind : DimensionKind) (id : Text) :
    (∀ w, (s.calls.filter fun c => c.admitted && c.countsFor bucket kind id &&
      decide (c.windowIndex config = w)).length ≤ config.limitOf bucket kind) ∧
    ∀ t, (s.calls.filter fun c => c.admitted && c.countsFor bucket kind id &&
      decide (t ≤ c.nowSeconds ∧ c.nowSeconds < t + config.windowSeconds)).length ≤
        2 * config.limitOf bucket kind := by
  refine ⟨length_admitted_le hslack hs bucket kind id, fun t => ?_⟩
  have hfirst := length_admitted_le hslack hs bucket kind id (t / config.windowSeconds)
  have hsecond := length_admitted_le hslack hs bucket kind id (t / config.windowSeconds + 1)
  refine le_trans ?_ ((Nat.add_le_add hfirst hsecond).trans (Nat.two_mul _).ge)
  -- A time as long as a window touches two windows at most.
  refine length_filter_le_add (fun c hc => ?_) _
  simp only [Bool.and_eq_true, decide_eq_true_eq] at hc ⊢
  obtain ⟨hc, hle, hlt⟩ := hc
  have hge := Nat.div_le_div_right (c := config.windowSeconds) hle
  have hless := Nat.div_lt_of_lt_mul (n := config.windowSeconds) (k := t / config.windowSeconds + 2)
    (m := c.nowSeconds) ?_
  · simp only [hc, true_and, Consumption.windowIndex]
    omega
  · have := Nat.lt_div_mul_add config.windowSeconds_pos (a := t)
    rw [Nat.mul_comm, Nat.add_mul]
    omega

end steps

/-! ## Two Requests -/

/-- One request a minute. -/
def onePerMinute : RateLimitConfig where
  windowSeconds := 60
  windowSeconds_pos := by decide
  buckets _ := 1

def guestRequest : GuardedRequest where
  method := "GET"
  url := ['/']
  principal := none
  ip := ['i']

/-- Two replicas ask at the same time; Redis comes to the second one first. -/
def twoRequests : List LimiterEvent :=
  [.canActivate guestRequest 59500, .canActivate guestRequest 59400, .tick 59600, .command 1 false,
    .command 0 false, .command 1 false, .command 0 false, .exec 0 false, .exec 1 false]

theorem exists_twoRequests :
    ∃ s, (limiter onePerMinute).Reachable (Prompt onePerMinute 0 1000) s ∧
      s.calls.map (fun c => (c.admitted, c.refused)) = [(false, true), (true, false)] := by
  have hreplay : ((limiter onePerMinute).replay (Prompt onePerMinute 0 1000) twoRequests
      ⟨0, fun _ => none, []⟩).map (fun s => s.calls.map fun c => (c.admitted, c.refused)) =
        some [(false, true), (true, false)] := by decide +kernel
  obtain ⟨s, hrun, hs⟩ := Machine.exists_run_of_replay hreplay
  exact ⟨s, ⟨_, ⟨rfl, rfl⟩, hrun⟩, hs⟩

theorem admitted_le_limit_twoRequests : ∃ s,
    (limiter onePerMinute).Reachable (Prompt onePerMinute 0 1000) s ∧
      (s.calls.filter fun c => c.admitted && c.countsFor .read .ip ['i'] &&
        decide (c.windowIndex onePerMinute = 0)).length ≤ 1 := by
  obtain ⟨s, hs, -⟩ := exists_twoRequests
  exact ⟨s, hs, (admitted_le_limit (by decide) hs .read .ip ['i']).1 0⟩

theorem over_of_refused_twoRequests : ∃ s,
    (limiter onePerMinute).Reachable Machine.anyEvent s ∧ ∃ call ∈ s.calls, call.refused ∧
      ∃ d ∈ call.dimensions, 1 < (s.calls.filter fun c => c.countsFor call.bucket d.kind d.id &&
        decide (c.windowIndex onePerMinute = call.windowIndex onePerMinute)).length := by
  obtain ⟨s, hs, hcalls⟩ := exists_twoRequests
  obtain ⟨call, hcall, heq⟩ : ∃ call ∈ s.calls, (call.admitted, call.refused) = (false, true) :=
    List.mem_map.mp (hcalls ▸ List.mem_cons_self)
  have hrefused : call.refused = true := congrArg Prod.snd heq
  obtain ⟨d, hd, hover⟩ := (over_of_refused hs.any hcall hrefused).1
  refine ⟨s, hs.any, call, hcall, hrefused, d, hd, lt_of_le_of_lt ?_ hover⟩
  cases d.kind <;> simp [RateLimitConfig.limitOf, onePerMinute, tenantLimitMultiplier]

end AudioBook.RateLimiter
