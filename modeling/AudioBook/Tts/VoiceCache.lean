import AudioBook.Concurrent.Machine
import AudioBook.Schema.Rows
import Mathlib.Data.List.Nodup

/-!
# The Voice Cache

`prepare_voice_cached` looks for a handle in the cache and awaits the provider when there is none.
Meanwhile another call can miss on the same key; the handle that is put first is then overwritten
and never passed to `on_evict`.

- `voiceCache`: calls of one worker, interleaved where they await something.
- `releasedOnce_of_uncontended`: what the cache keeps as long as no call misses on a key that
  another one is preparing.
-/

namespace AudioBook.VoiceCache

open Concurrent

/-! ## Calls -/

/-- `cache_key`. -/
structure CacheKey where
  voiceProfileVersionId : Id
  providerId : Id
  ttsModelVersionId : Id
  deriving DecidableEq

/-- What the provider prepared; no two of them are the same. -/
structure Handle where
  id : ℕ
  cacheKey : CacheKey
  deriving DecidableEq

/-- The cache, and the calls that await something. -/
structure State where
  /-- `_entries`, in their order. -/
  entries : List (CacheKey × Handle) := []
  /-- The keys for which a call awaits `prepare_voice`. -/
  preparing : List CacheKey := []
  /-- The number of calls that await `on_evict`. -/
  evicting : ℕ := 0
  /-- What `prepare_voice` has returned. -/
  prepared : List Handle := []
  /-- What was passed to `on_evict`. -/
  evicted : List Handle := []

def State.handles (s : State) : List Handle := s.entries.map Prod.snd

def State.keys (s : State) : List CacheKey := s.entries.map Prod.fst

/-- `move_to_end`, after which the key has this handle. -/
def State.moveToEnd (s : State) (key : CacheKey) (handle : Handle) : State :=
  { s with entries := (s.entries.filter fun entry => decide (entry.1 ≠ key)) ++ [(key, handle)] }

/-- `get`. -/
def State.get (s : State) (key : CacheKey) : Option (Handle × State) :=
  (s.entries.lookup key).map fun handle => (handle, s.moveToEnd key handle)

/-- The loop of `put`, until it awaits `on_evict` or ends. -/
def State.shrink (maxSize : ℕ) (s : State) : State :=
  match s.entries with
  | [] => s
  | oldest :: rest =>
      if maxSize < s.entries.length then
        { s with entries := rest, evicted := s.evicted ++ [oldest.2], evicting := s.evicting + 1 }
      else s

/-- `put`, until it awaits `on_evict` or ends. -/
def State.put (maxSize : ℕ) (s : State) (handle : Handle) : State :=
  if handle.cacheKey ∈ s.keys then s.moveToEnd handle.cacheKey handle
  else { s with entries := s.entries ++ [(handle.cacheKey, handle)] }.shrink maxSize

inductive Event
  /-- A call of `prepare_voice_cached`, until it awaits the provider or returns. -/
  | call (key : CacheKey)
  /-- The provider has prepared a voice, for a call that awaits it. -/
  | prepared (key : CacheKey)
  | failed (key : CacheKey)
  /-- `on_evict` returns. -/
  | evicted
  /-- `on_evict` raises. -/
  | evictFailed

def step (maxSize : ℕ) : Event → State → Option State
  | .call key, s =>
      match s.get key with
      | some (_, s') => some s'
      | none => some { s with preparing := key :: s.preparing }
  | .prepared key, s =>
      if key ∈ s.preparing then
        let handle := ⟨s.prepared.length, key⟩
        some (({ s with
          preparing := s.preparing.erase key
          prepared := s.prepared ++ [handle] }).put maxSize handle)
      else none
  | .failed key, s =>
      if key ∈ s.preparing then some { s with preparing := s.preparing.erase key } else none
  | .evicted, s =>
      if 0 < s.evicting then some ({ s with evicting := s.evicting - 1 }.shrink maxSize) else none
  | .evictFailed, s => if 0 < s.evicting then some { s with evicting := s.evicting - 1 } else none

def voiceCache (maxSize : ℕ) : Machine State Event where
  init s := s = {}
  step := step maxSize

/-- No call misses on a key that another one is preparing. -/
def uncontended : Event → State → Prop
  | .call key, s => key ∈ s.keys ∨ key ∉ s.preparing
  | _, _ => True

instance (event : Event) (s : State) : Decidable (uncontended event s) := by
  cases event <;> unfold uncontended <;> infer_instance

/-- The cache is not over its size, and every handle is either in the cache or was passed to
`on_evict` exactly once. -/
structure ReleasedOnce (maxSize : ℕ) (s : State) : Prop where
  size : s.entries.length ≤ maxSize
  released : ∀ handle ∈ s.prepared, handle ∈ s.handles ∧ handle ∉ s.evicted ∨
    handle ∉ s.handles ∧ s.evicted.count handle = 1

/-! ## The Invariant -/

variable {maxSize : ℕ} {s s' : State} {key : CacheKey} {handle : Handle} {event : Event}

/-- What holds between any two events of calls that do not compete for a key. -/
structure Inv (maxSize : ℕ) (s : State) : Prop where
  size : s.entries.length ≤ maxSize
  keys : s.keys.Nodup
  preparing : s.preparing.Nodup
  missing : ∀ key ∈ s.preparing, key ∉ s.keys
  /-- Handles are numbered in their order. -/
  ids : ∀ handle ∈ s.prepared, handle.id < s.prepared.length
  fresh : s.prepared.Nodup
  accounted : ∀ handle, s.handles.count handle + s.evicted.count handle = s.prepared.count handle

theorem inv_init : Inv maxSize {} where
  size := Nat.zero_le _
  keys := List.nodup_nil
  preparing := List.nodup_nil
  missing := by simp
  ids := by simp
  fresh := List.nodup_nil
  accounted := by simp [State.handles]

theorem Inv.releasedOnce (h : Inv maxSize s) : ReleasedOnce maxSize s where
  size := h.size
  released := fun handle hmem => by
    have hcount := h.accounted handle
    rw [List.count_eq_one_of_mem h.fresh hmem] at hcount
    -- one place in all: the cache, or the list of those that were released
    by_cases hcached : handle ∈ s.handles
    · have hpos := List.count_pos_iff.mpr hcached
      exact .inl ⟨hcached, List.count_eq_zero.mp (by omega)⟩
    · rw [List.count_eq_zero.mpr hcached] at hcount
      exact .inr ⟨hcached, by omega⟩

theorem perm_moveToEnd (hkeys : s.keys.Nodup) (hmem : (key, handle) ∈ s.entries) :
    (s.moveToEnd key handle).entries.Perm s.entries := by
  obtain ⟨front, back, hentries⟩ := List.append_of_mem hmem
  rw [State.keys, hentries, List.map_append, List.map_cons, List.nodup_middle, List.nodup_cons]
    at hkeys
  -- the key has no second entry that the filter would drop
  have hothers : ∀ entry ∈ front ++ back, decide (entry.1 ≠ key) = true := by
    intro entry hentry
    refine decide_eq_true fun heq => hkeys.1 ?_
    rw [← List.map_append, ← heq]
    exact List.mem_map.mpr ⟨entry, hentry, rfl⟩
  have hfilter : s.entries.filter (fun entry => decide (entry.1 ≠ key)) = front ++ back := by
    rw [hentries, List.filter_append, List.filter_cons_of_neg (by simp), ← List.filter_append]
    exact List.filter_eq_self.mpr hothers
  show (s.entries.filter _ ++ [(key, handle)]).Perm s.entries
  rw [hfilter, hentries, List.append_assoc]
  exact List.Perm.append_left _ List.perm_append_comm

theorem Inv.moveToEnd (h : Inv maxSize s) (hmem : (key, handle) ∈ s.entries) :
    Inv maxSize (s.moveToEnd key handle) := by
  have hperm := perm_moveToEnd h.keys hmem
  have hkeys : (s.moveToEnd key handle).keys.Perm s.keys := hperm.map _
  exact
    { h with
      size := hperm.length_eq ▸ h.size
      keys := hkeys.nodup_iff.mpr h.keys
      missing := fun k hk hin => h.missing k hk (hkeys.mem_iff.mp hin)
      accounted := fun other => by
        have hcount : (s.moveToEnd key handle).handles.count other = s.handles.count other :=
          (hperm.map _).count_eq other
        rw [hcount]
        exact h.accounted other }

theorem Inv.shrink (h : Inv (maxSize + 1) s) : Inv maxSize (s.shrink maxSize) := by
  unfold State.shrink
  split
  case h_1 hnil => exact { h with size := by rw [hnil]; exact Nat.zero_le _ }
  case h_2 oldest rest hcons =>
    split
    case isFalse hlt => exact { h with size := Nat.not_lt.mp hlt }
    case isTrue =>
      have hkeys := h.keys
      have hsize := h.size
      simp only [State.keys, hcons, List.map_cons, List.nodup_cons, List.length_cons] at hkeys hsize
      refine { h with
        size := Nat.le_of_succ_le_succ hsize
        keys := hkeys.2
        missing := fun key hkey hin => h.missing key hkey ?_
        accounted := fun handle => ?_ }
      · rw [State.keys, hcons]
        exact List.mem_cons_of_mem _ hin
      · -- the oldest handle goes from one place to the other
        have hcount := h.accounted handle
        simp only [State.handles, hcons, List.map_cons, List.count_cons, List.count_append,
          List.count_nil] at hcount ⊢
        omega

theorem Inv.mono (h : Inv maxSize s) : Inv (maxSize + 1) s :=
  { h with size := Nat.le_succ_of_le h.size }

theorem Inv.prepared (h : Inv maxSize s) (hkey : key ∈ s.preparing) :
    Inv (maxSize + 1) { s with
      preparing := s.preparing.erase key
      prepared := s.prepared ++ [⟨s.prepared.length, key⟩]
      entries := s.entries ++ [(key, ⟨s.prepared.length, key⟩)] } where
  size := by
    rw [List.length_append]
    exact Nat.succ_le_succ h.size
  keys := by
    simp only [State.keys, List.map_append, List.map_cons, List.map_nil]
    rw [← List.concat_eq_append]
    exact h.keys.concat (h.missing key hkey)
  preparing := h.preparing.erase key
  missing := fun other hother hin => by
    simp only [State.keys, List.map_append, List.map_cons, List.map_nil, List.mem_append,
      List.mem_singleton] at hin
    rcases hin with hin | rfl
    · exact h.missing other (List.mem_of_mem_erase hother) hin
    · exact h.preparing.not_mem_erase hother
  ids := fun handle hmem => by
    rw [List.length_append]
    rcases List.mem_append.mp hmem with hmem | hmem
    · exact Nat.lt_succ_of_lt (h.ids handle hmem)
    · rw [List.mem_singleton.mp hmem]
      exact Nat.lt_succ_self _
  fresh := by
    -- the number of the handle is larger than those of the others
    show (s.prepared ++ [_]).Nodup
    rw [← List.concat_eq_append]
    exact h.fresh.concat fun hmem =>
      Nat.lt_irrefl s.prepared.length (h.ids ⟨s.prepared.length, key⟩ hmem)
  accounted := fun handle => by
    have hcount := h.accounted handle
    simp only [State.handles, List.map_append, List.map_cons, List.map_nil, List.count_append]
      at hcount ⊢
    omega

theorem Inv.step (h : Inv maxSize s) (hevent : uncontended event s)
    (hstep : step maxSize event s = some s') : Inv maxSize s' := by
  cases event with
  | call key =>
    simp only [VoiceCache.step, State.get] at hstep
    cases hlookup : s.entries.lookup key with
    | some handle =>
      rw [hlookup] at hstep
      obtain rfl := Option.some.inj hstep
      obtain ⟨front, back, hentries, -⟩ := List.lookup_eq_some_iff.mp hlookup
      exact h.moveToEnd (by simp [hentries])
    | none =>
      rw [hlookup] at hstep
      obtain rfl := Option.some.inj hstep
      have hmissing : key ∉ s.keys := by
        rintro hin
        obtain ⟨entry, hentry, rfl⟩ := List.mem_map.mp hin
        simpa using List.lookup_eq_none_iff.mp hlookup entry hentry
      -- here the condition is needed: the key is awaited once
      have hfree := hevent.resolve_left hmissing
      exact { h with
        preparing := List.nodup_cons.mpr ⟨hfree, h.preparing⟩
        missing := fun other hother => by
          rcases List.mem_cons.mp hother with rfl | hother
          · exact hmissing
          · exact h.missing other hother }
  | prepared key =>
    obtain ⟨hkey, hstep⟩ := Option.ite_none_right_eq_some.mp hstep
    obtain rfl := Option.some.inj hstep
    -- the overwriting branch of `put` is not taken
    show Inv maxSize (if key ∈ s.keys then _ else _)
    rw [if_neg (h.missing key hkey)]
    exact (h.prepared hkey).shrink
  | failed key =>
    obtain ⟨hkey, hstep⟩ := Option.ite_none_right_eq_some.mp hstep
    obtain rfl := Option.some.inj hstep
    exact { h with
      preparing := h.preparing.erase key
      missing := fun other hother => h.missing other (List.mem_of_mem_erase hother) }
  | evicted =>
    obtain ⟨-, hstep⟩ := Option.ite_none_right_eq_some.mp hstep
    obtain rfl := Option.some.inj hstep
    -- the loop of this call looks at the size again
    have hless : Inv maxSize { s with evicting := s.evicting - 1 } := { h with }
    exact hless.mono.shrink
  | evictFailed =>
    obtain ⟨-, hstep⟩ := Option.ite_none_right_eq_some.mp hstep
    obtain rfl := Option.some.inj hstep
    exact { h with }

/-- As long as no call misses on a key that another one is preparing, the cache keeps its size and
every handle is released exactly once. -/
theorem releasedOnce_of_uncontended (h : (voiceCache maxSize).Reachable uncontended s) :
    ReleasedOnce maxSize s :=
  (h.invariant (P := Inv maxSize) (fun _ hinit => hinit ▸ inv_init)
    fun _ _ _ hinv hevent hstep => hinv.step hevent hstep).releasedOnce

/-- In a cache of one handle, a voice makes room for another one. -/
theorem releasedOnce_of_uncontended_two :
    ∃ s, (voiceCache 1).Reachable uncontended s ∧ ReleasedOnce 1 s ∧ s.evicted.length = 1 := by
  have hreplay : ((voiceCache 1).replay uncontended
      [.call ⟨1, 1, 1⟩, .prepared ⟨1, 1, 1⟩, .call ⟨2, 1, 1⟩, .prepared ⟨2, 1, 1⟩, .evicted] {}).map
        (fun s => s.evicted.length) = some 1 := by decide +kernel
  obtain ⟨s, hrun, hlength⟩ := Machine.exists_run_of_replay hreplay
  exact ⟨s, ⟨_, rfl, hrun⟩, releasedOnce_of_uncontended ⟨_, rfl, hrun⟩, hlength⟩

/-- Two calls miss on one key, and the second handle overwrites the first. -/
theorem not_forall_releasedOnce :
    ¬ ∀ (maxSize : ℕ) (s : State), 1 ≤ maxSize →
      (voiceCache maxSize).Reachable Machine.anyEvent s → ReleasedOnce maxSize s := by
  intro h
  have hreplay : ((voiceCache 8).replay Machine.anyEvent
      [.call ⟨1, 1, 1⟩, .call ⟨1, 1, 1⟩, .prepared ⟨1, 1, 1⟩, .prepared ⟨1, 1, 1⟩] {}).map
        (fun s => (s.prepared, s.handles, s.evicted)) =
      some ([⟨0, ⟨1, 1, 1⟩⟩, ⟨1, ⟨1, 1, 1⟩⟩], [⟨1, ⟨1, 1, 1⟩⟩], []) := by decide +kernel
  obtain ⟨s, hrun, hstate⟩ := Machine.exists_run_of_replay hreplay
  obtain ⟨hprepared, hhandles, hevicted⟩ : s.prepared = _ ∧ s.handles = _ ∧ s.evicted = _ := by
    simpa only [Prod.mk.injEq] using hstate
  have hreleased := (h 8 s (by decide) ⟨_, rfl, hrun⟩).released
  rw [hprepared, hhandles, hevicted] at hreleased
  exact absurd (hreleased ⟨0, ⟨1, 1, 1⟩⟩ (by simp)) (by decide)

end AudioBook.VoiceCache
