import AudioBook.Concurrent.Ownership
import AudioBook.Idempotency.Service
import Mathlib.Algebra.Order.Group.Multiset

/-!
# At Most Once

A key is meant to let its handler take effect once. Two things break this: a request may claim a
key that another request claimed after it looked, because the upsert does not look at the row it
overwrites, and a request whose handler took effect gives its key back when it cannot store the
response. In runs without these two, a claim is exclusive: the request that made it is the only
one that may run the handler or touch the row, until it stores the response or gives the key back.

Main results:

- `executedOnce_of_unraced`: every such run executes at most once.
-/

namespace AudioBook.Idempotency

open Relational Concurrent

variable {β δ : Type}

/-- The responses of the effects under a key. -/
def executionsOf (scope : Scope) (s : Registry β) : List (IdempotentResponse β) :=
  s.executions.filterMap fun execution =>
    if execution.1 = scope then some execution.2 else none

/-- For every key, the handler took effect at most once, and every response that was sent is the
response of that execution. -/
def ExecutedOnce (s : Registry β) : Prop :=
  ∀ scope, (executionsOf scope s).length ≤ 1 ∧
    ∀ response, (scope, response) ∈ s.replies → executionsOf scope s = [response]

/-- A claim meets a free key: no row, or a failed one. A key is given back only before the
handler took effect. -/
def Unraced : RegistryAccess → Registry β → Prop
  | .upsert scope, s => ∀ row ∈ s.rows, row.scope = scope → row.status = .failed
  | .markFailed id, s => ∀ row ∈ s.rows, row.id = id → row.scope ∉ s.executions.map Prod.fst
  | _, _ => True

instance (a : RegistryAccess) (s : Registry β) : Decidable (Unraced a s) :=
  match a with
  | .upsert scope =>
      inferInstanceAs (Decidable (∀ row ∈ s.rows, row.scope = scope → row.status = .failed))
  | .markFailed id =>
      inferInstanceAs (Decidable (∀ row ∈ s.rows, row.id = id →
        row.scope ∉ s.executions.map Prod.fst))
  | .findUnique _ | .handle _ | .complete _ | .reply _ => isTrue trivial

/-! ## Claims -/

inductive Phase (β : Type)
  /-- It saw the row of its key and has not claimed it yet. -/
  | seen
  | claimed
  /-- The handler took effect; the response is not stored yet. -/
  | executed (response : IdempotentResponse β)
  | settled (response : IdempotentResponse β)

/-- What a running request holds. -/
structure Claim (β : Type) where
  scope : Scope
  id : ℕ
  phase : Phase β

namespace Claim

/-- The claim is exclusive: its row is still in progress. -/
def isOpen (claim : Claim β) : Bool :=
  match claim.phase with
  | .claimed | .executed _ => true
  | .seen | .settled _ => false

/-- What the claim knows of the effects under its key. -/
def responses (claim : Claim β) : Option (List (IdempotentResponse β)) :=
  match claim.phase with
  | .seen => none
  | .claimed => some []
  | .executed response | .settled response => some [response]

/-- The store agrees with a claim. -/
structure Fits (claim : Claim β) (s : Registry β) : Prop where
  id_lt : claim.id < s.nextId
  /-- Only a row of its key can have the id that the claim writes to. -/
  scope : ∀ row ∈ s.rows, row.id = claim.id → row.scope = claim.scope
  row : claim.phase = .seen → ∃ row ∈ s.rows, row.scope = claim.scope
  inProgress : claim.isOpen → ∃ row ∈ s.rows, row.scope = claim.scope ∧ row.status = .inProgress
  executions : ∀ responses ∈ claim.responses, executionsOf claim.scope s = responses

end Claim

/-- What holds of the registry itself. -/
structure RegistryOk (s : Registry β) : Prop where
  id : (s.rows.map IdempotencyKeyRow.id).Nodup
  scope : (s.rows.map IdempotencyKeyRow.scope).Nodup
  id_lt : ∀ row ∈ s.rows, row.id < s.nextId
  unclaimed : ∀ scope, (∀ row ∈ s.rows, row.scope ≠ scope) → executionsOf scope s = []
  failed : ∀ row ∈ s.rows, row.status = .failed → executionsOf row.scope s = []
  completed : ∀ row ∈ s.rows, row.status = .completed → executionsOf row.scope s = [row.response]
  once : ExecutedOnce s

/-- The registry and the claims of the running requests agree, and open claims are exclusive. -/
structure Accounted (s : Registry β) (claims : Multiset (Claim β)) : Prop where
  registry : RegistryOk s
  fits : ∀ claim ∈ claims, claim.Fits s
  exclusive : ((claims.filter fun claim => claim.isOpen).map Claim.scope).Nodup

/-- The claims of running requests, in runs without the two defects. -/
def claimLedger (β : Type) : Ledger (Registry β) RegistryAccess (Multiset (Claim β)) where
  admits := Unraced
  fits := Accounted

/-! ## Adding and Dropping a Claim -/

section claims

variable {s : Registry β} {claim : Claim β} {claims : Multiset (Claim β)}

/-- Nobody else has an open claim on a key. -/
def Free (scope : Scope) (claims : Multiset (Claim β)) : Prop :=
  ∀ claim ∈ claims, claim.isOpen → claim.scope ≠ scope

theorem Accounted.of_cons (h : Accounted s (claim ::ₘ claims)) : Accounted s claims where
  registry := h.registry
  fits c hc := h.fits c (Multiset.mem_cons_of_mem hc)
  exclusive := by
    apply Multiset.nodup_of_le _ h.exclusive
    exact Multiset.map_le_map (Multiset.filter_le_filter _ (Multiset.le_cons_self _ _))

theorem Accounted.fits_cons (h : Accounted s (claim ::ₘ claims)) : claim.Fits s :=
  h.fits claim (Multiset.mem_cons_self _ _)

theorem Accounted.free_of_cons (h : Accounted s (claim ::ₘ claims)) (hopen : claim.isOpen) :
    Free claim.scope claims := by
  have hnodup := h.exclusive
  rw [Multiset.filter_cons_of_pos (p := fun c : Claim β => c.isOpen) _ hopen, Multiset.map_cons,
    Multiset.nodup_cons] at hnodup
  intro c hc hcopen hscope
  apply hnodup.1
  exact Multiset.mem_map.mpr ⟨c, Multiset.mem_filter.mpr ⟨hc, hcopen⟩, hscope⟩

theorem Accounted.cons (h : Accounted s claims) (hfits : claim.Fits s)
    (hfree : claim.isOpen → Free claim.scope claims) : Accounted s (claim ::ₘ claims) where
  registry := h.registry
  fits c hc := by
    rcases Multiset.mem_cons.mp hc with rfl | hc
    · exact hfits
    · exact h.fits c hc
  exclusive := by
    by_cases hopen : claim.isOpen = true
    · rw [Multiset.filter_cons_of_pos (p := fun c : Claim β => c.isOpen) _ hopen, Multiset.map_cons,
        Multiset.nodup_cons]
      refine ⟨fun hmem => ?_, h.exclusive⟩
      obtain ⟨c, hc, hscope⟩ := Multiset.mem_map.mp hmem
      obtain ⟨hc, hcopen⟩ := Multiset.mem_filter.mp hc
      exact hfree hopen c hc hcopen hscope
    · rw [Multiset.filter_cons_of_neg (p := fun c : Claim β => c.isOpen) _ hopen]
      exact h.exclusive

theorem Accounted.free_of_rows (h : Accounted s claims) {scope : Scope}
    (hrows : ∀ row ∈ s.rows, row.scope = scope → row.status ≠ .inProgress) :
    Free scope claims := by
  rintro c hc hopen rfl
  obtain ⟨row, hrow, hscope, hstatus⟩ := (h.fits c hc).inProgress hopen
  exact hrows row hrow hscope hstatus

end claims

/-! ## Changing the Store -/

section changes

variable {s : Registry β} {claims : Multiset (Claim β)} {scope : Scope}

theorem executionsOf_append (sc : Scope) (execution : Scope × IdempotentResponse β) :
    executionsOf sc { s with executions := s.executions ++ [execution] } =
      executionsOf sc s ++ if execution.1 = sc then [execution.2] else [] := by
  simp only [executionsOf, List.filterMap_append, List.filterMap_cons, List.filterMap_nil]
  by_cases hsc : execution.1 = sc <;> simp [hsc]

theorem executionsOf_eq_nil_iff : executionsOf scope s = [] ↔ scope ∉ s.executions.map Prod.fst := by
  simp only [executionsOf, List.filterMap_eq_nil_iff, ite_eq_right_iff, reduceCtorEq, imp_false,
    List.mem_map, not_exists, not_and]

theorem RegistryOk.eq_of_scope (h : RegistryOk s) {row row' : IdempotencyKeyRow β}
    (hrow : row ∈ s.rows) (hrow' : row' ∈ s.rows) (hscope : row.scope = row'.scope) : row = row' :=
  List.inj_on_of_nodup_map h.scope hrow hrow' hscope

theorem Accounted.update (h : Accounted s claims) (hfree : Free scope claims)
    {p : IdempotencyKeyRow β → Bool} {f : IdempotencyKeyRow β → IdempotencyKeyRow β}
    (hp : ∀ row ∈ s.rows, p row = true → row.scope = scope) (hid : ∀ row, (f row).id = row.id)
    (hscope : ∀ row, (f row).scope = row.scope)
    (hfailed : ∀ row, (f row).status = .failed → executionsOf scope s = [])
    (hcompleted : ∀ row, (f row).status = .completed → executionsOf scope s = [(f row).response]) :
    Accounted { s with rows := updateWhere p f s.rows } claims where
  registry := {
    id := nodup_map_updateWhere h.registry.id hid
    scope := nodup_map_updateWhere h.registry.scope hscope
    id_lt := forall_mem_updateWhere h.registry.id_lt fun row hrow _ =>
      (hid row).symm ▸ h.registry.id_lt row hrow
    unclaimed := by
      intro sc hsc
      apply h.registry.unclaimed sc
      intro row hrow hrowsc
      have hmem : sc ∈ (updateWhere p f s.rows).map IdempotencyKeyRow.scope := by
        rw [map_updateWhere _ hscope]
        exact List.mem_map.mpr ⟨row, hrow, hrowsc⟩
      obtain ⟨row', hrow', hsc'⟩ := List.mem_map.mp hmem
      exact hsc row' hrow' hsc'
    failed := forall_mem_updateWhere h.registry.failed fun row hrow hprow hstatus => by
      show executionsOf (f row).scope s = []
      rw [hscope, hp row hrow hprow]
      exact hfailed row hstatus
    completed := forall_mem_updateWhere h.registry.completed fun row hrow hprow hstatus => by
      show executionsOf (f row).scope s = _
      rw [hscope, hp row hrow hprow]
      exact hcompleted row hstatus
    once := h.registry.once }
  fits claim hclaim := {
    id_lt := (h.fits claim hclaim).id_lt
    scope := forall_mem_updateWhere (h.fits claim hclaim).scope fun row hrow _ hrowid => by
      rw [hscope]
      exact (h.fits claim hclaim).scope row hrow (hid row ▸ hrowid)
    row := fun hseen => by
      obtain ⟨row, hrow, hrowscope⟩ := (h.fits claim hclaim).row hseen
      by_cases hprow : p row = true
      · exact ⟨f row, mem_updateWhere.mpr (.inl ⟨row, hrow, hprow, rfl⟩),
          (hscope row).trans hrowscope⟩
      · exact ⟨row, mem_updateWhere.mpr (.inr ⟨hrow, by simpa using hprow⟩), hrowscope⟩
    inProgress := fun hopen => by
      obtain ⟨row, hrow, hrowscope, hstatus⟩ := (h.fits claim hclaim).inProgress hopen
      refine ⟨row, mem_updateWhere.mpr (.inr ⟨hrow, ?_⟩), hrowscope, hstatus⟩
      by_contra hprow
      exact hfree claim hclaim hopen (hrowscope ▸ hp row hrow (by simpa using hprow))
    executions := (h.fits claim hclaim).executions }
  exclusive := h.exclusive

theorem Accounted.insert (h : Accounted s claims) {row : IdempotencyKeyRow β}
    (hnone : ∀ row' ∈ s.rows, row'.scope ≠ row.scope) (hid : row.id = s.nextId)
    (hstatus : row.status = .inProgress) :
    Accounted { s with rows := s.rows ++ [row], nextId := s.nextId + 1 } claims where
  registry := {
    id := by
      rw [List.map_append, List.nodup_append]
      refine ⟨h.registry.id, by simp, ?_⟩
      intro i hi i' hi' heq
      obtain ⟨row', hrow', rfl⟩ := List.mem_map.mp hi
      have hlt := h.registry.id_lt row' hrow'
      obtain rfl : i' = row.id := by simpa using hi'
      omega
    scope := by
      rw [List.map_append, List.nodup_append]
      refine ⟨h.registry.scope, by simp, ?_⟩
      intro sc hsc sc' hsc' heq
      obtain ⟨row', hrow', rfl⟩ := List.mem_map.mp hsc
      obtain rfl : sc' = row.scope := by simpa using hsc'
      exact hnone row' hrow' heq
    id_lt := by
      intro row' hrow'
      rcases List.mem_append.mp hrow' with hrow' | hrow'
      · exact (h.registry.id_lt row' hrow').trans (Nat.lt_succ_self _)
      · obtain rfl := List.mem_singleton.mp hrow'
        exact hid ▸ Nat.lt_succ_self _
    unclaimed := fun sc hsc =>
      h.registry.unclaimed sc fun row' hrow' => hsc row' (List.mem_append_left _ hrow')
    failed := by
      intro row' hrow' hfailed
      rcases List.mem_append.mp hrow' with hrow' | hrow'
      · exact h.registry.failed row' hrow' hfailed
      · obtain rfl := List.mem_singleton.mp hrow'
        simp [hstatus] at hfailed
    completed := by
      intro row' hrow' hcompleted
      rcases List.mem_append.mp hrow' with hrow' | hrow'
      · exact h.registry.completed row' hrow' hcompleted
      · obtain rfl := List.mem_singleton.mp hrow'
        simp [hstatus] at hcompleted
    once := h.registry.once }
  fits claim hclaim := {
    id_lt := (h.fits claim hclaim).id_lt.trans (Nat.lt_succ_self _)
    scope := by
      intro row' hrow' hrowid
      rcases List.mem_append.mp hrow' with hrow' | hrow'
      · exact (h.fits claim hclaim).scope row' hrow' hrowid
      · obtain rfl := List.mem_singleton.mp hrow'
        exact absurd (h.fits claim hclaim).id_lt (by omega)
    row := fun hseen => by
      obtain ⟨row', hrow', hscope⟩ := (h.fits claim hclaim).row hseen
      exact ⟨row', List.mem_append_left _ hrow', hscope⟩
    inProgress := fun hopen => by
      obtain ⟨row', hrow', hscope, hstatus'⟩ := (h.fits claim hclaim).inProgress hopen
      exact ⟨row', List.mem_append_left _ hrow', hscope, hstatus'⟩
    executions := (h.fits claim hclaim).executions }
  exclusive := h.exclusive

theorem Accounted.skipId (h : Accounted s claims) :
    Accounted { s with nextId := s.nextId + 1 } claims where
  registry := { h.registry with
    id_lt := fun row hrow => (h.registry.id_lt row hrow).trans (Nat.lt_succ_self _) }
  fits claim hclaim := { h.fits claim hclaim with
    id_lt := (h.fits claim hclaim).id_lt.trans (Nat.lt_succ_self _) }
  exclusive := h.exclusive

theorem Accounted.execute (h : Accounted s claims) (hfree : Free scope claims)
    (hrow : ∃ row ∈ s.rows, row.scope = scope ∧ row.status = .inProgress)
    (hfirst : executionsOf scope s = []) (response : IdempotentResponse β) :
    Accounted { s with executions := s.executions ++ [(scope, response)] } claims := by
  obtain ⟨row, hrow, hrowscope, hstatus⟩ := hrow
  -- Nothing else in the store speaks of the effects under this key.
  have hother : ∀ sc, scope ≠ sc →
      executionsOf sc { s with executions := s.executions ++ [(scope, response)] } =
        executionsOf sc s := by
    intro sc hsc
    rw [executionsOf_append, if_neg hsc, List.append_nil]
  have hthis : executionsOf scope { s with executions := s.executions ++ [(scope, response)] } =
      [response] := by
    rw [executionsOf_append, if_pos rfl, hfirst, List.nil_append]
  refine ⟨⟨h.registry.id, h.registry.scope, h.registry.id_lt, ?_, ?_, ?_, ?_⟩, ?_, h.exclusive⟩
  · intro sc hsc
    rw [hother sc fun heq => hsc row hrow (hrowscope.trans heq)]
    exact h.registry.unclaimed sc hsc
  · intro row' hrow' hfailed
    have hsc : scope ≠ row'.scope := by
      intro heq
      obtain rfl := h.registry.eq_of_scope hrow hrow' (hrowscope.trans heq)
      simp [hstatus] at hfailed
    rw [hother _ hsc]
    exact h.registry.failed row' hrow' hfailed
  · intro row' hrow' hcompleted
    have hsc : scope ≠ row'.scope := by
      intro heq
      obtain rfl := h.registry.eq_of_scope hrow hrow' (hrowscope.trans heq)
      simp [hstatus] at hcompleted
    rw [hother _ hsc]
    exact h.registry.completed row' hrow' hcompleted
  · intro sc
    by_cases hsc : scope = sc
    · subst hsc
      rw [hthis]
      refine ⟨le_rfl, fun r hr => ?_⟩
      have := (h.registry.once scope).2 r hr
      simp [hfirst] at this
    · rw [hother sc hsc]
      exact h.registry.once sc
  · intro claim hclaim
    have hfits := h.fits claim hclaim
    refine ⟨hfits.id_lt, hfits.scope, hfits.row, hfits.inProgress, fun rs hrs => ?_⟩
    by_cases hsc : scope = claim.scope
    · -- The key has no effect yet, so only an open claim could say so, and there is none.
      exfalso
      have hrs' := hfits.executions rs hrs
      rw [← hsc, hfirst] at hrs'
      subst hrs'
      refine hfree claim hclaim ?_ hsc.symm
      unfold Claim.responses at hrs
      unfold Claim.isOpen
      cases hphase : claim.phase <;> simp [hphase] at hrs ⊢
    · rw [hother _ hsc]
      exact hfits.executions rs hrs

theorem Accounted.reply (h : Accounted s claims) {response : IdempotentResponse β}
    (hresponse : executionsOf scope s = [response]) :
    Accounted { s with replies := s.replies ++ [(scope, response)] } claims where
  registry := { h.registry with
    once := by
      intro sc
      refine ⟨(h.registry.once sc).1, fun r hr => ?_⟩
      rcases List.mem_append.mp hr with hr | hr
      · exact (h.registry.once sc).2 r hr
      · obtain ⟨rfl, rfl⟩ : sc = scope ∧ r = response := by simpa using hr
        exact hresponse }
  fits claim hclaim := { h.fits claim hclaim with }
  exclusive := h.exclusive

end changes

/-! ## What Each Access Does -/

section accesses

variable {s s' : Registry β} {others : Multiset (Claim β)} {scope : Scope} {id : ℕ}

/-- What a request holds when it goes on to claim its key. -/
def lookedUp (scope : Scope) : Option ℕ → Multiset (Claim β)
  | some id => {⟨scope, id, .seen⟩}
  | none => 0

theorem findRow_eq_some {row : IdempotencyKeyRow β} (h : findRow scope s = some row) :
    row ∈ s.rows ∧ row.scope = scope :=
  ⟨List.mem_of_find?_eq_some h, by simpa using List.find?_some h⟩

theorem findRow_eq_none (h : findRow scope s = none) : ∀ row ∈ s.rows, row.scope ≠ scope := by
  simpa [findRow] using h

theorem Accounted.claimRow (h : Accounted s others) (hfree : Unraced (.upsert scope) s)
    (hrow : ∃ row ∈ s.rows, row.scope = scope) (hid : id < s.nextId)
    (hidscope : ∀ row ∈ s.rows, row.id = id → row.scope = scope) (requestBodyHash : ℕ) :
    Accounted
      { s with
        rows := updateWhere (fun row => decide (row.scope = scope))
          (fun row => { row with status := .inProgress, requestBodyHash := requestBodyHash }) s.rows }
      (⟨scope, id, .claimed⟩ ::ₘ others) := by
  obtain ⟨row, hmem, hscope⟩ := hrow
  have hfirst : executionsOf scope s = [] :=
    hscope ▸ h.registry.failed row hmem (hfree row hmem hscope)
  have hothers : Free scope others := by
    apply h.free_of_rows
    intro row' hrow' hsc hstatus
    rw [hfree row' hrow' hsc] at hstatus
    cases hstatus
  refine Accounted.cons ?_ ⟨hid, ?_, ?_, fun _ => ?_, ?_⟩ fun _ => hothers
  · refine h.update hothers ?_ ?_ ?_ ?_ ?_
    · intro row' _ hrow'
      simpa using hrow'
    · exact fun _ => rfl
    · exact fun _ => rfl
    · exact fun row' hfailed => IdempotencyStatus.noConfusion hfailed
    · exact fun row' hcompleted => IdempotencyStatus.noConfusion hcompleted
  · exact forall_mem_updateWhere hidscope fun row' hrow' _ hrowid => hidscope row' hrow' hrowid
  · intro hseen
    cases hseen
  · exact ⟨_, mem_updateWhere.mpr (.inl ⟨row, hmem, by simpa using hscope, rfl⟩), hscope, rfl⟩
  · intro responses hresponses
    obtain rfl : [] = responses := by simpa [Claim.responses] using hresponses
    exact hfirst

theorem upsert_spec {requestBodyHash : ℕ} {existing : Option ℕ}
    (h : Accounted s (lookedUp scope existing + others)) (hfree : Unraced (.upsert scope) s)
    (hs : upsert scope requestBodyHash existing s = .ok (id, s')) :
    Accounted s' ({⟨scope, id, .claimed⟩} + others) := by
  rw [Multiset.singleton_add]
  unfold upsert at hs
  obtain ⟨id', s₁, hid, hs⟩ := Transaction.bind_eq_ok_iff.mp hs
  obtain ⟨s₂, s₂', hget, hs⟩ := Transaction.bind_eq_ok_iff.mp hs
  cases hget
  -- The store with the id of the claim, and what is known of that id.
  have hs₁ : s₁.rows = s.rows ∧ Accounted s₁ others ∧ id' < s₁.nextId ∧
      ∀ row ∈ s₁.rows, row.id = id' → row.scope = scope := by
    cases existing with
    | some seen =>
      cases hid
      rw [lookedUp, Multiset.singleton_add] at h
      exact ⟨rfl, h.of_cons, h.fits_cons.id_lt, h.fits_cons.scope⟩
    | none =>
      cases hid
      rw [lookedUp, zero_add] at h
      refine ⟨rfl, h.skipId, Nat.lt_succ_self _, fun row hrow hrowid => ?_⟩
      exact absurd (h.registry.id_lt row hrow) (by omega)
  obtain ⟨hrows, hacc, hlt, hidscope⟩ := hs₁
  have hfree₁ : Unraced (.upsert scope) s₁ := fun row hrow => hfree row (hrows ▸ hrow)
  cases hfound : findRow scope s₁ with
  | some row =>
    rw [hfound] at hs
    obtain ⟨u, s₃, hupdate, hs⟩ := Transaction.bind_eq_ok_iff.mp hs
    obtain ⟨-, rfl⟩ := (Table.update_eq_ok_iff (ε := RequestError) idempotencyKey).mp hupdate
    cases hs
    exact hacc.claimRow hfree₁ ⟨row, findRow_eq_some hfound⟩ hlt hidscope requestBodyHash
  | none =>
    rw [hfound] at hs
    obtain ⟨u, s₃, hinsert, hs⟩ := Transaction.bind_eq_ok_iff.mp hs
    obtain ⟨-, rfl⟩ := (Table.insert_eq_ok_iff (ε := RequestError) idempotencyKey).mp hinsert
    cases hs
    have hnone : ∀ row ∈ s.rows, row.scope ≠ scope := fun row hrow =>
      findRow_eq_none hfound row (hrows ▸ hrow)
    cases existing with
    | some seen =>
      -- The row that was seen is still there.
      rw [lookedUp, Multiset.singleton_add] at h
      obtain ⟨row, hrow, hscope⟩ := h.fits_cons.row rfl
      exact absurd hscope (hnone row hrow)
    | none =>
      cases hid
      rw [lookedUp, zero_add] at h
      have hothers : Free scope others :=
        h.free_of_rows fun row hrow hsc => absurd hsc (hnone row hrow)
      refine (h.insert hnone rfl rfl).cons ⟨Nat.lt_succ_self _, ?_, by simp, fun _ => ?_, ?_⟩
        fun _ => hothers
      · intro row hrow hrowid
        rcases List.mem_append.mp hrow with hrow | hrow
        · exact absurd (h.registry.id_lt row hrow) (by simp at hrowid; omega)
        · obtain rfl := List.mem_singleton.mp hrow
          rfl
      · exact ⟨_, List.mem_append_right _ (List.mem_singleton_self _), rfl, rfl⟩
      · intro responses hresponses
        obtain rfl : [] = responses := by simpa [Claim.responses] using hresponses
        exact h.registry.unclaimed scope hnone

variable {result : IdempotentResponse β} {handler : Registry β → IdempotentResponse β}

theorem execute_spec (h : Accounted s ({⟨scope, id, .claimed⟩} + others))
    (hs : execute scope handler s = .ok (result, s')) :
    Accounted s' ({⟨scope, id, .executed result⟩} + others) := by
  rw [Multiset.singleton_add] at h ⊢
  cases hs
  have hclaim := h.fits_cons
  have hfree : Free scope others := h.free_of_cons rfl
  have hrow := hclaim.inProgress rfl
  have hfirst : executionsOf scope s = [] := hclaim.executions [] rfl
  refine (h.of_cons.execute hfree hrow hfirst _).cons ?_ fun _ => hfree
  refine ⟨hclaim.id_lt, hclaim.scope, fun hseen => (by cases hseen), fun _ => hrow, ?_⟩
  intro responses hresponses
  obtain rfl : [handler s] = responses := by simpa [Claim.responses] using hresponses
  rw [executionsOf_append, if_pos rfl, hfirst, List.nil_append]

theorem updateRow_eq_ok {f : IdempotencyKeyRow β → IdempotencyKeyRow β} {u : Unit}
    (hs : updateRow id f s = .ok (u, s')) :
    (∃ row ∈ s.rows, row.id = id) ∧
      s' = { s with rows := updateWhere (fun row => decide (row.id = id)) f s.rows } := by
  unfold updateRow at hs
  obtain ⟨s₁, s₁', hget, hs⟩ := Transaction.bind_eq_ok_iff.mp hs
  cases hget
  split at hs
  · next hrow =>
    obtain ⟨-, rfl⟩ := (Table.update_eq_ok_iff (ε := RequestError) idempotencyKey).mp hs
    exact ⟨by simpa using hrow, rfl⟩
  · cases hs

theorem complete_spec (h : Accounted s ({⟨scope, id, .executed result⟩} + others))
    (hs : complete id result s = .ok ((), s')) :
    Accounted s' ({⟨scope, id, .settled result⟩} + others) := by
  rw [Multiset.singleton_add] at h ⊢
  obtain ⟨-, rfl⟩ := updateRow_eq_ok hs
  have hclaim := h.fits_cons
  have hfree : Free scope others := h.free_of_cons rfl
  have hexecuted : executionsOf scope s = [result] := hclaim.executions [result] rfl
  refine Accounted.cons ?_ ?_ fun hopen => Bool.noConfusion hopen
  · refine h.of_cons.update hfree ?_ ?_ ?_ ?_ ?_
    · intro row hrow hrowid
      exact hclaim.scope row hrow (by simpa using hrowid)
    · exact fun _ => rfl
    · exact fun _ => rfl
    · exact fun row hfailed => IdempotencyStatus.noConfusion hfailed
    · exact fun row _ => hexecuted
  · refine ⟨hclaim.id_lt, ?_, fun hseen => (by cases hseen),
      fun hopen => Bool.noConfusion hopen, ?_⟩
    · exact forall_mem_updateWhere hclaim.scope fun row hrow _ hrowid =>
        hclaim.scope row hrow hrowid
    · intro responses hresponses
      obtain rfl : [result] = responses := by simpa [Claim.responses] using hresponses
      exact hexecuted

theorem markFailed_spec {claim : Claim β} (hphase : claim.phase ≠ .seen)
    (h : Accounted s ({claim} + others)) (hunused : Unraced (.markFailed claim.id) s)
    (hs : markFailed claim.id s = .ok ((), s')) : Accounted s' (0 + others) := by
  rw [Multiset.singleton_add] at h
  rw [zero_add]
  obtain ⟨⟨row, hrow, hrowid⟩, rfl⟩ := updateRow_eq_ok hs
  have hclaim := h.fits_cons
  have hnone : executionsOf claim.scope s = [] := by
    rw [executionsOf_eq_nil_iff, ← hclaim.scope row hrow hrowid]
    exact hunused row hrow hrowid
  -- The claim is open: a claim past the effect would know of the effect.
  have hopen : claim.isOpen := by
    have hresponses := hclaim.executions
    unfold Claim.responses at hresponses
    unfold Claim.isOpen
    cases hcase : claim.phase with
    | seen => exact absurd hcase hphase
    | claimed => rfl
    | executed response => rfl
    | settled response =>
      rw [hcase] at hresponses
      simp [hresponses _ rfl] at hnone
  refine h.of_cons.update (h.free_of_cons hopen) ?_ ?_ ?_ ?_ ?_
  · intro row' hrow' hrowid'
    exact hclaim.scope row' hrow' (by simpa using hrowid')
  · exact fun _ => rfl
  · exact fun _ => rfl
  · exact fun _ _ => hnone
  · exact fun row' hcompleted => IdempotencyStatus.noConfusion hcompleted

theorem sendReply_spec (h : Accounted s ({⟨scope, id, .settled result⟩} + others))
    (hs : sendReply scope result s = .ok ((), s')) : Accounted s' (0 + others) := by
  rw [Multiset.singleton_add] at h
  rw [zero_add]
  cases hs
  exact h.of_cons.reply (h.fits_cons.executions [result] rfl)

theorem findRow_spec {row : IdempotencyKeyRow β} {phase : Phase β} (h : Accounted s (0 + others))
    (hfound : findRow scope s = some row)
    (hphase : phase = .seen ∨ phase = .settled row.response ∧ row.status = .completed) :
    Accounted s ({⟨scope, row.id, phase⟩} + others) := by
  rw [zero_add] at h
  rw [Multiset.singleton_add]
  obtain ⟨hrow, rfl⟩ := findRow_eq_some hfound
  have hnotopen : ¬ (⟨row.scope, row.id, phase⟩ : Claim β).isOpen := by
    rcases hphase with rfl | ⟨rfl, -⟩ <;> exact Bool.noConfusion
  refine h.cons ⟨h.registry.id_lt row hrow, ?_, fun _ => ⟨row, hrow, rfl⟩,
    fun hopen => absurd hopen hnotopen, ?_⟩ fun hopen => absurd hopen hnotopen
  · intro row' hrow' hrowid
    rw [List.inj_on_of_nodup_map h.registry.id hrow' hrow hrowid]
  · intro responses hresponses
    rcases hphase with rfl | ⟨rfl, hcompleted⟩
    · simp [Claim.responses] at hresponses
    · obtain rfl : [row.response] = responses := by simpa [Claim.responses] using hresponses
      exact h.registry.completed row hrow hcompleted

end accesses

/-! ## The Service Keeps the Ledger -/

section programs

variable {request : Request β δ} {id : ℕ} {err : RequestError}

theorem wp_runHandler {requestBodyHash : ℕ} {existing : Option ℕ} :
    (claimLedger β).wp (runHandler request requestBodyHash existing)
      (fun response share => ∃ id, share = {⟨request.scope, id, .settled response⟩})
      (fun _ _ => True) (lookedUp request.scope existing) := by
  unfold runHandler
  rw [Ledger.wp_bind]
  apply Ledger.wp_atomically (G := fun id share => share = {⟨request.scope, id, .claimed⟩})
  · intro s others id s' hfits hadmits hs
    exact ⟨_, upsert_spec hfits hadmits hs, rfl⟩
  · rintro id _ rfl
    -- What the exception handler may find: the claim, at any point after it was made.
    have hrelease : ∀ err share, (∃ phase, phase ≠ .seen ∧
        share = {(⟨request.scope, id, phase⟩ : Claim β)}) →
        (claimLedger β).wp
          (do
            tryCatchThe RequestError (Prog.atomically (.markFailed id) (markFailed id))
              fun _ => pure ()
            throw err : Handler β (IdempotentResponse β))
          (fun response share => ∃ id, share = {⟨request.scope, id, .settled response⟩})
          (fun _ _ => True) share := by
      rintro err _ ⟨phase, hphase, rfl⟩
      rw [Ledger.wp_bind, Ledger.wp_tryCatch]
      apply Ledger.wp_atomically (G := fun _ _ => True)
      · intro s others _ s' hfits hadmits hs
        exact ⟨0, markFailed_spec hphase hfits hadmits hs, trivial⟩
      · exact fun _ _ _ => trivial
      · exact fun _ _ _ _ => trivial
      · exact fun _ => trivial
    rw [Ledger.wp_tryCatch, Ledger.wp_bind]
    apply Ledger.wp_atomically
      (G := fun result share => share = {(⟨request.scope, id, .executed result⟩ : Claim β)})
    · intro s others result s' hfits _ hs
      exact ⟨_, execute_spec hfits hs, rfl⟩
    · rintro result _ rfl
      rw [Ledger.wp_bind]
      apply Ledger.wp_atomically
        (G := fun _ share => share = {(⟨request.scope, id, .settled result⟩ : Claim β)})
      · intro s others _ s' hfits _ hs
        exact ⟨_, complete_spec hfits hs, rfl⟩
      · rintro _ _ rfl
        exact ⟨id, rfl⟩
      · rintro err _ _ rfl
        exact hrelease err _ ⟨.settled result, by simp, rfl⟩
      · exact fun err => hrelease err _ ⟨.executed result, by simp, rfl⟩
    · rintro err result _ rfl
      exact hrelease err _ ⟨.executed result, by simp, rfl⟩
    · exact fun err => hrelease err _ ⟨.claimed, by simp, rfl⟩
  · exact fun _ _ _ _ => trivial
  · exact fun _ => trivial

theorem wp_run (digest : δ → ℕ) :
    (claimLedger β).wp (run digest request)
      (fun response share => ∃ id, share = {⟨request.scope, id, .settled response⟩})
      (fun _ _ => True) 0 := by
  unfold run
  rw [Ledger.wp_bind]
  apply Ledger.wp_read
  · intro s others hfits _
    cases hfound : findRow request.scope s with
    | none => exact ⟨0, hfits, wp_runHandler⟩
    | some row =>
      simp only
      split
      · exact ⟨0, hfits, trivial⟩
      · cases hstatus : row.status with
        | completed =>
          exact ⟨_, findRow_spec hfits hfound (.inr ⟨rfl, hstatus⟩), row.id, rfl⟩
        | inProgress => exact ⟨0, hfits, trivial⟩
        | failed => exact ⟨_, findRow_spec hfits hfound (.inl rfl), wp_runHandler⟩
  · exact fun _ => trivial

theorem safe_serve (digest : δ → ℕ) : (claimLedger β).Safe (serve digest request) 0 := by
  unfold Ledger.Safe serve
  rw [Ledger.wp_bind]
  apply Ledger.wp_mono _ (fun _ _ _ => trivial) (wp_run digest)
  rintro response _ ⟨id, rfl⟩
  apply Ledger.wp_atomically (G := fun _ _ => True)
  · intro s others _ s' hfits _ hs
    exact ⟨0, sendReply_spec hfits hs, trivial⟩
  · exact fun _ _ _ => trivial
  · exact fun _ _ _ _ => trivial
  · exact fun _ => trivial

theorem secures_idempotencySystem (digest : δ → ℕ) :
    (idempotencySystem β digest).Secures (claimLedger β) where
  init s hs := by
    obtain rfl : s = {} := hs
    exact {
      registry := {
        id := List.nodup_nil
        scope := List.nodup_nil
        id_lt := by simp
        unclaimed := fun _ _ => rfl
        failed := by simp
        completed := by simp
        once := fun scope => ⟨Nat.zero_le 1, by simp⟩ }
      fits := by simp
      exclusive := Multiset.nodup_zero }
  program _ := safe_serve digest

end programs

/-- In every run in which a claim meets a free key and no key is given back after its handler
took effect, every handler takes effect at most once under its key, and every response that was
sent is the response of that execution. -/
theorem executedOnce_of_unraced (digest : δ → ℕ)
    {c : Config (Registry β) RegistryAccess RequestError}
    (h : (idempotencySystem β digest).Reachable Unraced c) : ExecutedOnce c.store := by
  obtain ⟨claims, hfits⟩ := (secures_idempotencySystem digest).fits_of_reachable h
  exact hfits.registry.once

/-! ## Two First Requests -/

/-- A route whose response tells how many handlers ran before. -/
def createBook : Request ℕ ℕ where
  scope := ⟨1, 2, "POST", "/api/v1/books", "6f1c"⟩
  body := 0
  handler s := { status := 201, body := some s.executions.length, location := none }

/-- What clients see of the store: the effects under the key and the responses. -/
def effects (s : Registry ℕ) : List (IdempotentResponse ℕ) × List (IdempotentResponse ℕ) :=
  (executionsOf createBook.scope s, s.replies.map Prod.snd)

def created : IdempotentResponse ℕ := { status := 201, body := some 0, location := none }

def completedAndRetried : List (Move (Request ℕ ℕ) RequestError) :=
  [.spawn createBook, .proceed 0, .proceed 0, .proceed 0, .proceed 0, .proceed 0,
    .spawn createBook, .proceed 1, .proceed 1]

/-- The retry of a request that completed gets the stored response. -/
theorem executedOnce_retry : ∃ c, (idempotencySystem ℕ id).Reachable Unraced c ∧
    effects c.store = ([created], [created, created]) ∧ ExecutedOnce c.store := by
  have hplay : ((idempotencySystem ℕ id).playAll Unraced ⟨{}, []⟩ completedAndRetried).map
      (fun c => effects c.store) = some ([created], [created, created]) := by decide +kernel
  obtain ⟨c, hrun, heffects⟩ := System.exists_run_of_playAll (f := effects) hplay
  have hreach : (idempotencySystem ℕ id).Reachable Unraced c := ⟨{}, rfl, hrun⟩
  exact ⟨c, hreach, heffects, executedOnce_of_unraced id hreach⟩

/-- Two requests that both look their key up before either claims it. -/
def claimedTwice : List (Move (Request ℕ ℕ) RequestError) :=
  [.spawn createBook, .spawn createBook, .proceed 0, .proceed 1, .proceed 0, .proceed 1,
    .proceed 0, .proceed 1]

/-- It is not so that a key lets its handler take effect once: two first requests both execute. -/
theorem not_forall_executedOnce :
    ¬ ∀ c, (idempotencySystem ℕ id).Reachable anyAccess c → ExecutedOnce c.store := by
  intro h
  have hplay : ((idempotencySystem ℕ id).playAll anyAccess ⟨{}, []⟩ claimedTwice).map
      (fun c => effects c.store) = some ([created, { created with body := some 1 }], []) := by
    decide +kernel
  obtain ⟨c, hrun, heffects⟩ := System.exists_run_of_playAll (f := effects) hplay
  have hexecutions : executionsOf createBook.scope c.store =
      [created, { created with body := some 1 }] := congrArg Prod.fst heffects
  have honce := (h c ⟨{}, rfl, hrun⟩ createBook.scope).1
  rw [hexecutions] at honce
  exact absurd honce (by decide)

-- The response of the first request could not be stored, so its retry executes again.
example : ((idempotencySystem ℕ id).playAll anyAccess ⟨{}, []⟩
    [.spawn createBook, .proceed 0, .proceed 0, .proceed 0, .refuse 0 .other, .proceed 0,
      .spawn createBook, .proceed 1, .proceed 1, .proceed 1, .proceed 1, .proceed 1]).map
        (fun c => effects c.store) =
    some ([created, { created with body := some 1 }], [{ created with body := some 1 }]) := by
  decide +kernel

end AudioBook.Idempotency
