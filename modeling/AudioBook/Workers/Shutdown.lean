import AudioBook.Workers.Runtime

/-!
# The Shutdown of a Worker

What `shutdown` promises, for any number of calls, in any interleaving with `start` and with the
jobs: it is refused by no transition, releases everything, and leaves a worker that accepts no job.

The table of the transitions has no way from `STARTING` to `DRAINING`. A call of `shutdown` in that
state raises and releases nothing, and `start` goes on to an idle worker that consumes. And a load
that ends after the model has been unloaded leaves the model loaded.

## Main results

* `shutdown_raises_iff`: where a call of `shutdown` raises.
* `shutdown_completes`: while no call is made in `STARTING` and no load ends after the unloading, the
  promise holds in every reachable state, and every call comes to its end.
-/

namespace AudioBook.WorkerLifecycle

open Concurrent

namespace ShutdownPoint

/-- The states in which a worker may be while a call stands there. -/
def states : ShutdownPoint → List WorkerState
  | .pausing | .waiting | .closing _ | .ignored => [.draining, .stopped]
  | .releasing _ failedStart => if failedStart then [.failedStart] else [.draining, .stopped]
  | .finished failedStart => if failedStart then [.failedStart] else [.stopped]
  | .raised _ => []

/-- The call has made the worker drain. -/
def drains : ShutdownPoint → Bool
  | .pausing | .waiting | .closing _ => true
  | .releasing _ failedStart | .finished failedStart => !failedStart
  | .ignored | .raised _ => false

/-- The call has left `drain` behind. -/
def drained : ShutdownPoint → Bool
  | .releasing _ _ | .finished _ => true
  | _ => false

def released : ShutdownPoint → List Resource
  | .releasing .storage _ => [.model]
  | .releasing .database _ => [.model, .storage]
  | .finished _ => [.model, .storage, .database]
  | _ => []

/-- The awaits that are left to a call. -/
def remaining : ShutdownPoint → ℕ
  | .pausing => 6
  | .waiting => 5
  | .closing _ => 4
  | .releasing .model _ => 3
  | .releasing .storage _ => 2
  | .releasing .database _ => 1
  | .finished _ | .ignored | .raised _ => 0

theorem mem_stopping_of_mem_states {p : ShutdownPoint} {state : WorkerState}
    (h : state ∈ p.states) : state ∈ WorkerState.stopping := by
  have hcases : p.states = [.draining, .stopped] ∨ p.states = [.failedStart] ∨
      p.states = [.stopped] ∨ p.states = [] := by
    cases p <;> simp only [states] <;> (try split) <;> simp
  obtain hp | hp | hp | hp := hcases <;> rw [hp] at h <;> revert h <;> cases state <;> decide

theorem stopped_mem_states {p : ShutdownPoint} (h : .draining ∈ p.states) : .stopped ∈ p.states := by
  cases p <;> simp only [states] at h ⊢ <;> (try split at h) <;> simp_all

end ShutdownPoint

/-- What is promised of the calls of `shutdown` made so far. -/
structure ShutdownKept (s : WorkerRuntime) : Prop where
  not_raised : ∀ e, .raised e ∉ s.calls
  /-- A worker that has been told to stop is not ready again. -/
  not_ready : s.calls ≠ [] → ¬ s.health.isReady
  not_accepting : s.calls ≠ [] → ∀ wellFormed s',
    runtimeMachine.step (.deliver wellFormed) s = some s' → s' = s
  /-- Once a call has run to its end, nothing is held but what could not be released. -/
  released : ∀ failedStart, .finished failedStart ∈ s.calls →
    s.consumer = false ∧ s.held ⊆ s.unreleased ∧
      s.health.state = if failedStart then .failedStart else .stopped
  /-- A call that returned at once left the sequence to another one. -/
  ignored : .ignored ∈ s.calls → ∃ p ∈ s.calls, p.drains

/-- `shutdown` is called in a state that may drain, and a load ends only while the model has not
been unloaded. -/
def timely : Event → WorkerRuntime → Prop
  | .shutdown, s => s.health.state ≠ .starting
  | .loaded _, s => ∀ p ∈ s.calls, .model ∉ p.released
  | _, _ => True

instance : ∀ e s, Decidable (timely e s)
  | .shutdown, s => inferInstanceAs (Decidable (s.health.state ≠ .starting))
  | .loaded _, s => inferInstanceAs (Decidable (∀ p ∈ s.calls, .model ∉ p.released))
  | .start, _ | .connect _, _ | .probeRaised, _ | .verified _ _ _, _ | .loadTimedOut, _
  | .loadRaised, _ | .cancelStart, _ | .advance _ _, _ | .deliver _, _ | .finishJob, _ =>
      isTrue trivial

def onlyCall (call : ℕ) : Event → WorkerRuntime → Prop
  | .advance call' _, _ => call' = call
  | _, _ => False

/-! ## The invariant -/

/-- What a call relies on. -/
structure CallOk (s : WorkerRuntime) (p : ShutdownPoint) : Prop where
  state : s.health.state ∈ p.states
  consumer : p.drained → s.consumer = false
  released : ∀ r ∈ p.released, r ∈ s.held → r ∈ s.unreleased

/-- What the position of `start` says about the worker. -/
structure StartOk (s : WorkerRuntime) : Prop where
  /-- While the engine may still be created, the worker is starting. -/
  connecting : s.connecting → s.health.state = .starting
  early : s.start = .created ∨ s.start = .verifying → s.health.state = .starting
  loading : s.start = .loading → s.connecting = false
  consumes : s.consumer ∨ s.fetching → s.start = .returned ∧ s.health.state ≠ .failedStart

/-- What every event keeps. -/
structure Inv (s : WorkerRuntime) : Prop where
  start : StartOk s
  calls : ∀ p ∈ s.calls, CallOk s p
  drains : s.health.isDraining → ∃ p ∈ s.calls, p.drains

/-- What an event that is not one of `shutdown` leaves to the calls of `shutdown`. -/
structure Evolves (s s' : WorkerRuntime) : Prop where
  calls : s'.calls = s.calls
  state : s.health.state ∈ WorkerState.stopping → s'.health.state = s.health.state
  consumer : s.health.state ∈ WorkerState.stopping → s.consumer = false → s'.consumer = false
  draining : s'.health.isDraining → s.health.isDraining
  held : ∀ p ∈ s.calls, ∀ r ∈ p.released, (r ∈ s.held → r ∈ s.unreleased) →
    r ∈ s'.held → r ∈ s'.unreleased

variable {s s' : WorkerRuntime} {p p' : ShutdownPoint}

theorem Evolves.callOk (h : Evolves s s') (hp : p ∈ s.calls) (hok : CallOk s p) : CallOk s' p where
  state := by
    rw [h.state (ShutdownPoint.mem_stopping_of_mem_states hok.state)]
    exact hok.state
  consumer hd := h.consumer (ShutdownPoint.mem_stopping_of_mem_states hok.state) (hok.consumer hd)
  released r hr := h.held p hp r hr (hok.released r hr)

theorem Evolves.inv (h : Evolves s s') (hinv : Inv s) (hstart : StartOk s') : Inv s' where
  start := hstart
  calls p hp := by
    rw [h.calls] at hp
    exact h.callOk hp (hinv.calls p hp)
  drains hd := by
    rw [h.calls]
    exact hinv.drains (h.draining hd)

variable {target : WorkerState}

theorem state_eq_of_transitionTo {h h' : WorkerHealth} {errorCode : Option String}
    (hh : h.transitionTo target errorCode = .ok h') (hs : h.state ∈ WorkerState.stopping)
    (htarget : target ≠ .stopped) : h'.state = h.state := by
  obtain ⟨rfl, hsame | hallowed, -⟩ := WorkerHealth.state_of_transitionTo hh
  · exact hsame.symm
  · exfalso
    revert hs hallowed htarget
    cases h.state <;> cases h'.state <;> decide

theorem evolves_of_frame (hcalls : s'.calls = s.calls) (hconsumer : s'.consumer = s.consumer)
    (hheld : s'.held = s.held) (hunreleased : s'.unreleased = s.unreleased)
    (hstate : s'.health.state = s.health.state ∨
      s.health.state ∉ WorkerState.stopping ∧ ¬ s'.health.isDraining) : Evolves s s' where
  calls := hcalls
  state hs := hstate.elim id fun h => absurd hs h.1
  consumer _ hc := by rw [hconsumer, hc]
  draining hd := by
    obtain hsame | ⟨-, hnot⟩ := hstate
    · unfold WorkerHealth.isDraining at hd ⊢
      rwa [hsame] at hd
    · exact absurd hd hnot
  held p _ r _ := by
    rw [hheld, hunreleased]
    exact id

theorem Inv.calls_eq_nil (hinv : Inv s) (hs : s.health.state ∉ WorkerState.stopping) :
    s.calls = [] := by
  apply List.eq_nil_iff_forall_not_mem.mpr
  intro p hp
  exact hs (ShutdownPoint.mem_stopping_of_mem_states (hinv.calls p hp).state)

theorem inv_of_calls_eq_nil (hcalls : s.calls = []) (hstart : StartOk s)
    (hnot : ¬ s.health.isDraining) : Inv s where
  start := hstart
  calls p hp := by
    rw [hcalls] at hp
    cases hp
  drains hd := absurd hd hnot

/-! ## The events of `start` -/

theorem transition_spec (s : WorkerRuntime) (errorCode : Option String) (start : StartPoint)
    (htarget : target ≠ .stopped ∧ target ≠ .draining) :
    ∃ health start', s.transition (s.health.transitionTo target errorCode) start =
        { s with health, start := start' } ∧
      (start' = start ∨ ∃ e, start' = .raised (.invalidTransition e)) ∧
      (health.state = s.health.state ∨
        s.health.state ∉ WorkerState.stopping ∧ ¬ health.isDraining) := by
  cases hr : s.health.transitionTo target errorCode with
  | error e => exact ⟨s.health, _, rfl, .inr ⟨e, rfl⟩, .inl rfl⟩
  | ok health =>
      refine ⟨health, start, rfl, .inl rfl, ?_⟩
      by_cases hs : s.health.state ∈ WorkerState.stopping
      · exact .inl (state_eq_of_transitionTo hr hs htarget.1)
      · refine .inr ⟨hs, ?_⟩
        obtain ⟨rfl, -, -⟩ := WorkerHealth.state_of_transitionTo hr
        exact fun hd => hd.elim htarget.2 htarget.1

theorem inv_transition {errorCode : Option String} {start : StartPoint} (hinv : Inv s)
    (htarget : target ≠ .stopped ∧ target ≠ .draining) (hconnecting : s.connecting = false)
    (hat : s.start = .verifying ∨ s.start = .loading)
    (hstart : start ≠ .created ∧ start ≠ .verifying) :
    Inv (s.transition (s.health.transitionTo target errorCode) start) := by
  obtain ⟨health, start', hs', hstart', hstate⟩ :=
    transition_spec s errorCode start htarget
  rw [hs']
  have hevolves : Evolves s { s with health, start := start' } :=
    evolves_of_frame rfl rfl rfl rfl hstate
  refine hevolves.inv hinv ⟨fun hc => absurd hc (by simp [hconnecting]), fun he => ?_, fun _ => hconnecting,
    fun hc => ?_⟩
  · obtain rfl | ⟨e, rfl⟩ := hstart'
    · exact absurd he (not_or.mpr hstart)
    · simp at he
  · have hreturned := (hinv.start.consumes hc).1
    rw [hreturned] at hat
    simp at hat

theorem inv_modelLoaded {constructs : Bool} (hinv : Inv s) (hat : s.start = .loading)
    (hunreleased : ∀ p ∈ s.calls, .model ∉ p.released) : Inv (s.modelLoaded constructs) := by
  have hidle : ¬ (s.consumer = true ∨ s.fetching = true) := fun hc => by
    have hreturned := (hinv.start.consumes hc).1
    rw [hat] at hreturned
    cases hreturned
  have hconnecting : s.connecting = false := hinv.start.loading hat
  unfold WorkerRuntime.modelLoaded
  cases hready : s.health.markModelReady with
  | error e =>
      simp only [hready]
      have hevolves : Evolves s { s with
          held := insert Resource.model s.held
          start := .raised (.invalidTransition e) } := by
        refine ⟨rfl, fun _ => rfl, fun _ => id, id, fun p hp r hr hheld hmem => ?_⟩
        obtain rfl | hmem := Finset.mem_insert.mp hmem
        · exact absurd hr (hunreleased p hp)
        · exact hheld hmem
      exact hevolves.inv hinv
        ⟨fun hc => absurd hc (by simp [hconnecting]), by simp, by simp, fun hc => absurd hc hidle⟩
  | ok health =>
      obtain ⟨hhealth, -, -⟩ := WorkerHealth.state_of_transitionTo hready
      -- A stopping worker refuses to be ready, so that no call of `shutdown` has been made.
      have hcalls : s.calls = [] := hinv.calls_eq_nil fun hs => by
        have hsame := state_eq_of_transitionTo hready hs (by decide)
        rw [← hsame, hhealth] at hs
        revert hs
        decide
      simp only [hready]
      split
      · refine inv_of_calls_eq_nil hcalls ⟨fun hc => absurd hc (by simp [hconnecting]), by simp,
          by simp, fun hc => absurd hc hidle⟩ ?_
        simp [WorkerHealth.isDraining, hhealth]
      · obtain ⟨h', hh'⟩ := WorkerHealth.exists_transitionTo health none
          (show health.state = .idle ∨ .idle ∈ health.state.allowed by rw [hhealth]; decide)
        obtain ⟨hstate, -, -⟩ := WorkerHealth.state_of_transitionTo hh'
        rw [show health.markIdle = .ok h' from hh', WorkerRuntime.transition]
        refine inv_of_calls_eq_nil hcalls ⟨fun hc => absurd hc (by simp [hconnecting]), by simp,
          by simp, fun _ => ⟨rfl, by simp [hstate]⟩⟩ ?_
        simp [WorkerHealth.isDraining, hstate]

/-! ## The events of `shutdown` -/

theorem inv_called (hstart : StartOk s) (hcalls : ∀ q ∈ s.calls, CallOk s q) (hnew : CallOk s p)
    (hdrains : s.health.isDraining → p.drains ∨ ∃ q ∈ s.calls, q.drains) : Inv (s.called p) where
  start := ⟨hstart.connecting, hstart.early, hstart.loading, hstart.consumes⟩
  calls q hq := by
    obtain hq | hq := List.mem_append.mp hq
    · exact ⟨(hcalls q hq).state, (hcalls q hq).consumer, (hcalls q hq).released⟩
    · obtain rfl := List.mem_singleton.mp hq
      exact ⟨hnew.state, hnew.consumer, hnew.released⟩
  drains hd := by
    obtain hp | ⟨q, hq, hqd⟩ := hdrains hd
    · exact ⟨p, List.mem_append_right _ (List.mem_singleton_self p), hp⟩
    · exact ⟨q, List.mem_append_left _ hq, hqd⟩

theorem inv_shutdown (hinv : Inv s) (hs : s.health.state ≠ .starting) : Inv s.shutdown := by
  unfold WorkerRuntime.shutdown
  split
  · rename_i hd
    refine inv_called hinv.start hinv.calls ⟨?_, by simp [ShutdownPoint.drained],
      by simp [ShutdownPoint.released]⟩ fun _ => .inr (hinv.drains hd)
    simpa [ShutdownPoint.states, WorkerHealth.isDraining] using hd
  · rename_i hd
    split
    · rename_i hf
      refine inv_called hinv.start hinv.calls ⟨by simp [ShutdownPoint.states, hf], fun _ => ?_,
        by simp [ShutdownPoint.released]⟩ fun hd' => absurd hd' hd
      -- A worker whose start has failed never had a consumer.
      by_contra hc
      exact (hinv.start.consumes (.inl (by simpa using hc))).2 hf
    · rename_i hf
      cases hr : s.health.markDraining with
      | error e =>
          exfalso
          obtain h | h | h := WorkerHealth.markDraining_eq_error_iff.mp ⟨e, hr⟩
          · exact hs h
          · exact hd (.inr h)
          · exact hf h
      | ok health =>
          obtain ⟨hstate, -, -⟩ := WorkerHealth.state_of_transitionTo hr
          have hcalls : s.calls = [] := hinv.calls_eq_nil fun hmem => by
            revert hmem hf hd
            unfold WorkerHealth.isDraining
            cases s.health.state <;> decide
          refine inv_called ⟨fun hc => absurd (hinv.start.connecting hc) hs,
            fun he => absurd (hinv.start.early he) hs, hinv.start.loading,
            fun hc => ⟨(hinv.start.consumes hc).1, by simp [hstate]⟩⟩ (by simp [hcalls]) ?_ ?_
          · cases hc : s.consumer <;>
              exact ⟨by simp [ShutdownPoint.states, hstate], by simp [ShutdownPoint.drained],
                by simp [ShutdownPoint.released]⟩
          · intro _
            cases s.consumer <;> exact .inl rfl

/-- What a call of `shutdown` does between two of its awaits. -/
structure Releases (s s' : WorkerRuntime) : Prop where
  start : s'.start = s.start
  connecting : s'.connecting = s.connecting
  consumer : s'.consumer = true → s.consumer = true
  fetching : s'.fetching = true → s.fetching = true
  state : s'.health.state = s.health.state ∨
    s.health.state = .draining ∧ s'.health.state = .stopped
  held : ∀ r, (r ∈ s.held → r ∈ s.unreleased) → r ∈ s'.held → r ∈ s'.unreleased

theorem Releases.refl (s : WorkerRuntime) : Releases s s :=
  ⟨rfl, rfl, id, id, .inl rfl, fun _ => id⟩

theorem releases_release (s : WorkerRuntime) (r : Resource) (raises : Bool) :
    Releases s (s.release r raises) ∧
      (r ∈ (s.release r raises).held → r ∈ (s.release r raises).unreleased) := by
  cases raises with
  | false =>
      refine ⟨⟨rfl, rfl, id, id, .inl rfl, fun r' h hmem => h (Finset.mem_of_mem_erase hmem)⟩,
        fun hmem => absurd hmem (Finset.notMem_erase r _)⟩
  | true =>
      refine ⟨⟨rfl, rfl, id, id, .inl rfl, fun r' h hmem => Finset.mem_insert_of_mem (h hmem)⟩,
        fun _ => Finset.mem_insert_self r _⟩

theorem Releases.callOk (h : Releases s s') (hok : CallOk s p) : CallOk s' p where
  state := by
    obtain hsame | ⟨hd, hstopped⟩ := h.state
    · rw [hsame]
      exact hok.state
    · rw [hstopped]
      exact ShutdownPoint.stopped_mem_states (hd ▸ hok.state)
  consumer hd := by
    have hc := hok.consumer hd
    by_contra hc'
    simp [h.consumer (by simpa using hc')] at hc
  released r hr := h.held r (hok.released r hr)

theorem Releases.trans {s'' : WorkerRuntime} (h : Releases s s') (h' : Releases s' s'')
    (hsame : s'.health = s.health) : Releases s s'' where
  start := h'.start.trans h.start
  connecting := h'.connecting.trans h.connecting
  consumer := h.consumer ∘ h'.consumer
  fetching := h.fetching ∘ h'.fetching
  state := by
    rw [← hsame]
    exact h'.state
  held r := h'.held r ∘ h.held r

theorem finish_spec {failedStart : Bool}
    (hstate : s.health.state ∈ (ShutdownPoint.releasing .database failedStart).states) :
    ∃ s', s.finish failedStart = (s', .finished failedStart) ∧ Releases s s' ∧
      s'.calls = s.calls ∧ s'.health.state ∈ (ShutdownPoint.finished failedStart).states := by
  cases failedStart with
  | true => exact ⟨s, rfl, Releases.refl s, rfl, hstate⟩
  | false =>
      have hd : s.health.isDraining := by
        simpa [ShutdownPoint.states, WorkerHealth.isDraining] using hstate
      obtain ⟨health, hh, hstopped, -⟩ := WorkerHealth.exists_markStopped hd
      refine ⟨{ s with health }, by simp [WorkerRuntime.finish, hh], ?_, rfl, ?_⟩
      · refine ⟨rfl, rfl, id, id, ?_, fun _ => id⟩
        exact hd.elim (fun h => .inr ⟨h, hstopped⟩) fun h => .inl (hstopped.trans h.symm)
      · simp [ShutdownPoint.states, hstopped]

theorem advance_spec (raises : Bool) (hok : CallOk s p) (hleft : 0 < p.remaining) :
    ∃ s' p', s.advance raises p = some (s', p') ∧ Releases s s' ∧ s'.calls = s.calls ∧
      CallOk s' p' ∧ p'.drains = p.drains ∧ p'.remaining < p.remaining := by
  cases p with
  | pausing =>
      exact ⟨s, .waiting, rfl, Releases.refl s, rfl, ⟨hok.state, nofun, nofun⟩, rfl,
        by simp [ShutdownPoint.remaining]⟩
  | waiting =>
      exact ⟨s, _, rfl, Releases.refl s, rfl, ⟨hok.state, nofun, nofun⟩, rfl, by simp [ShutdownPoint.remaining]⟩
  | closing finished =>
      refine ⟨{ s with consumer := false, fetching := s.fetching && raises }, _, rfl,
        ⟨rfl, rfl, nofun, ?_, .inl rfl, fun _ => id⟩, rfl, ⟨hok.state, fun _ => rfl, nofun⟩, rfl,
        by simp [ShutdownPoint.remaining]⟩
      exact fun h => (Bool.and_eq_true _ _ ▸ h).1
  | releasing r failedStart =>
      obtain ⟨hreleases, hr⟩ := releases_release s r raises
      have hhealth : (s.release r raises).health = s.health := by
        unfold WorkerRuntime.release
        split <;> rfl
      have hcalls : (s.release r raises).calls = s.calls := by
        unfold WorkerRuntime.release
        split <;> rfl
      have hok' := hreleases.callOk hok
      cases r with
      | model =>
          refine ⟨_, .releasing .storage failedStart, rfl, hreleases, hcalls,
            ⟨hok'.state, hok'.consumer, fun r hmem => ?_⟩, rfl, by simp [ShutdownPoint.remaining]⟩
          obtain rfl := List.mem_singleton.mp hmem
          exact hr
      | storage =>
          refine ⟨_, .releasing .database failedStart, rfl, hreleases, hcalls,
            ⟨hok'.state, hok'.consumer, fun r hmem => ?_⟩, rfl, by simp [ShutdownPoint.remaining]⟩
          obtain hmem | hmem := List.mem_cons.mp hmem
          · exact hok'.released r (hmem ▸ List.mem_singleton_self _)
          · obtain rfl := List.mem_singleton.mp hmem
            exact hr
      | database =>
          obtain ⟨s', hs', hfinish, hcalls', hstate⟩ := finish_spec hok'.state
          refine ⟨s', .finished failedStart, congrArg some hs', hreleases.trans hfinish hhealth,
            hcalls'.trans hcalls, ⟨hstate, fun _ => ?_, fun r hmem => ?_⟩, rfl, by simp [ShutdownPoint.remaining]⟩
          · exact (hfinish.callOk hok').consumer rfl
          · refine hfinish.held r ?_
            obtain rfl | hmem := List.mem_cons.mp hmem
            · exact hok'.released _ (List.mem_cons_self ..)
            · obtain rfl | hmem := List.mem_cons.mp hmem
              · exact hok'.released _ (List.mem_cons_of_mem _ (List.mem_singleton_self _))
              · obtain rfl := List.mem_singleton.mp hmem
                exact hr
  | finished failedStart => exact absurd hleft (Nat.lt_irrefl 0)
  | ignored => exact absurd hleft (Nat.lt_irrefl 0)
  | raised e => exact absurd hleft (Nat.lt_irrefl 0)

theorem advance_eq_none (raises : Bool) (h : p.remaining = 0) : s.advance raises p = none := by
  cases p with
  | pausing | waiting | closing _ => cases h
  | releasing r _ => cases r <;> cases h
  | finished _ | ignored | raised _ => rfl

theorem inv_advance {call : ℕ} (raises : Bool) (hinv : Inv s) (hp : s.calls[call]? = some p)
    (hleft : 0 < p.remaining) :
    ∃ s' p', WorkerRuntime.step (.advance call raises) s = some s' ∧ Inv s' ∧
      s'.calls = s.calls.set call p' ∧ p'.remaining < p.remaining ∧ p'.drains = p.drains := by
  have hmem := List.mem_of_getElem? hp
  have hok := hinv.calls p hmem
  obtain ⟨s₁, p', hadvance, hreleases, hcalls, hok', hdrains, hlt⟩ := advance_spec raises hok hleft
  have hstopping := ShutdownPoint.mem_stopping_of_mem_states hok.state
  have hnotStarting : s.health.state ≠ .starting := fun h => by
    rw [h] at hstopping
    revert hstopping
    decide
  refine ⟨{ s₁ with calls := s₁.calls.set call p' }, p', ?_, ⟨?_, fun q hq => ?_, fun hd => ?_⟩,
    by rw [hcalls], hlt, hdrains⟩
  · simp [WorkerRuntime.step, hp, hadvance]
  · refine ⟨fun hc => ?_, fun he => ?_, fun hl => ?_, fun hc => ⟨?_, ?_⟩⟩
    · exact absurd (hinv.start.connecting (hreleases.connecting ▸ hc)) hnotStarting
    · exact absurd (hinv.start.early (hreleases.start ▸ he)) hnotStarting
    · exact hreleases.connecting.trans (hinv.start.loading (hreleases.start ▸ hl))
    · exact hreleases.start.trans
        (hinv.start.consumes (hc.imp hreleases.consumer hreleases.fetching)).1
    · obtain hsame | ⟨-, hstopped⟩ := hreleases.state
      · rw [hsame]
        exact (hinv.start.consumes (hc.imp hreleases.consumer hreleases.fetching)).2
      · rw [hstopped]
        decide
  · obtain hq | rfl := List.mem_or_eq_of_mem_set hq
    · have hqok := hreleases.callOk (hinv.calls q (hcalls ▸ hq))
      exact ⟨hqok.state, hqok.consumer, hqok.released⟩
    · exact ⟨hok'.state, hok'.consumer, hok'.released⟩
  · -- The call that has made the worker drain still is among the calls, where it stands now.
    have hd' : s.health.isDraining := by
      obtain hsame | ⟨hdraining, -⟩ := hreleases.state
      · unfold WorkerHealth.isDraining at hd ⊢
        rwa [hsame] at hd
      · exact .inl hdraining
    obtain ⟨q, hq, hqd⟩ := hinv.drains hd'
    obtain ⟨i, hi⟩ := List.mem_iff_getElem?.mp hq
    by_cases hic : call = i
    · subst hic
      obtain rfl : q = p := Option.some.inj (hi.symm.trans hp)
      refine ⟨p', ?_, hdrains.trans hqd⟩
      have hlen : call < s₁.calls.length := hcalls ▸ (List.getElem?_eq_some_iff.mp hp).1
      exact List.mem_set hlen p'
    · refine ⟨q, List.mem_iff_getElem?.mpr ⟨i, ?_⟩, hqd⟩
      rw [List.getElem?_set_ne hic, hcalls, hi]

/-! ## The events of jobs -/

theorem inv_job {health : WorkerHealth} (hinv : Inv s)
    (hstate : health.state = s.health.state ∨
      (s.health.state = .modelReady ∨ s.health.state = .idle) ∧ health.state = .processing ∨
      s.health.state = .processing ∧ health.state = .idle) : Inv { s with health } := by
  have hevolves : Evolves s { s with health } := by
    refine evolves_of_frame rfl rfl rfl rfl ?_
    obtain h | ⟨h | h, h'⟩ | ⟨h, h'⟩ := hstate
    · exact .inl h
    all_goals
      refine .inr ⟨by rw [h]; decide, ?_⟩
      simp [WorkerHealth.isDraining, h']
  have hstarting : s.health.state = .starting → health.state = .starting := fun hs => by
    simpa [hs] using hstate
  refine hevolves.inv hinv ⟨hstarting ∘ hinv.start.connecting, hstarting ∘ hinv.start.early,
    hinv.start.loading, fun hc => ⟨(hinv.start.consumes hc).1, fun hf => ?_⟩⟩
  have hnot := (hinv.start.consumes hc).2
  have hf : health.state = .failedStart := hf
  rw [hf] at hstate
  simp [Ne.symm hnot] at hstate

/-! ## Runs -/

theorem inv_init : Inv {} where
  start := ⟨nofun, fun _ => rfl, nofun, by decide⟩
  calls := nofun
  drains := by decide

theorem inv_step (e : Event) (hinv : Inv s) (htimely : timely e s)
    (hstep : runtimeMachine.step e s = some s') : Inv s' := by
  simp only [runtimeMachine] at hstep
  cases e with
  | start =>
      obtain ⟨hat, h⟩ := Option.ite_none_right_eq_some.mp hstep
      cases h
      have hstarting := hinv.start.early (.inl hat)
      have hevolves : Evolves s { s with start := .verifying, connecting := true } :=
        evolves_of_frame rfl rfl rfl rfl (.inl rfl)
      refine hevolves.inv hinv ⟨fun _ => hstarting, fun _ => hstarting, nofun, fun hc => ?_⟩
      have hreturned := (hinv.start.consumes hc).1
      rw [hat] at hreturned
      cases hreturned
  | connect creates =>
      obtain ⟨hconnecting, h⟩ := Option.ite_none_right_eq_some.mp hstep
      cases h
      have hstarting := hinv.start.connecting hconnecting
      have hcalls : s.calls = [] := hinv.calls_eq_nil (by rw [hstarting]; decide)
      exact inv_of_calls_eq_nil hcalls
        ⟨nofun, hinv.start.early, fun _ => rfl, hinv.start.consumes⟩
        (by simp [WorkerHealth.isDraining, hstarting])
  | probeRaised =>
      obtain ⟨hat, h⟩ := Option.ite_none_right_eq_some.mp hstep
      cases h
      have hevolves : Evolves s { s with start := .raised .probe } :=
        evolves_of_frame rfl rfl rfl rfl (.inl rfl)
      refine hevolves.inv hinv ⟨hinv.start.connecting, by simp, nofun, fun hc => ?_⟩
      have hreturned := (hinv.start.consumes hc).1
      rw [hat] at hreturned
      cases hreturned
  | verified storageOk queueOk dbOk =>
      obtain ⟨⟨hat, hconnecting⟩, h⟩ := Option.ite_none_right_eq_some.mp hstep
      cases h
      have hconnecting : s.connecting = false := by simpa using hconnecting
      unfold WorkerRuntime.verifyDependencies
      split
      · exact inv_transition hinv (by decide) hconnecting (.inl hat) ⟨nofun, nofun⟩
      · exact inv_transition hinv (by decide) hconnecting (.inl hat) ⟨nofun, nofun⟩
  | loaded constructs =>
      obtain ⟨hat, h⟩ := Option.ite_none_right_eq_some.mp hstep
      cases h
      exact inv_modelLoaded hinv hat htimely
  | loadTimedOut =>
      obtain ⟨hat, h⟩ := Option.ite_none_right_eq_some.mp hstep
      cases h
      exact inv_transition hinv (by decide) (hinv.start.loading hat) (.inr hat) ⟨nofun, nofun⟩
  | loadRaised =>
      obtain ⟨hat, h⟩ := Option.ite_none_right_eq_some.mp hstep
      cases h
      exact inv_transition hinv (by decide) (hinv.start.loading hat) (.inr hat) ⟨nofun, nofun⟩
  | cancelStart =>
      obtain ⟨hat, h⟩ := Option.ite_none_right_eq_some.mp hstep
      cases h
      have hevolves : Evolves s { s with start := .raised .cancelled, connecting := false } :=
        evolves_of_frame rfl rfl rfl rfl (.inl rfl)
      refine hevolves.inv hinv ⟨nofun, by simp, nofun, fun hc => ?_⟩
      have hreturned := (hinv.start.consumes hc).1
      rw [hreturned] at hat
      simp at hat
  | shutdown =>
      cases hstep
      exact inv_shutdown hinv htimely
  | advance call raises =>
      simp only [WorkerRuntime.step, Option.bind_eq_bind, Option.bind_eq_some_iff] at hstep
      obtain ⟨p, hp, ⟨s₁, p'⟩, hadvance, h⟩ := hstep
      have hleft : 0 < p.remaining := Nat.pos_of_ne_zero fun h0 => by
        rw [advance_eq_none raises h0] at hadvance
        cases hadvance
      obtain ⟨s₂, -, hs₂, hinv₂, -⟩ := inv_advance raises hinv hp hleft
      have hstep' : WorkerRuntime.step (.advance call raises) s = some s' := by
        simp [WorkerRuntime.step, hp, hadvance, h]
      obtain rfl := Option.some.inj (hs₂.symm.trans hstep')
      exact hinv₂
  | deliver wellFormed =>
      obtain ⟨-, h⟩ := Option.ite_none_right_eq_some.mp hstep
      unfold WorkerRuntime.deliver at h
      split at h
      · cases h
        exact hinv
      · obtain ⟨health, hh, -, hstate⟩ := s.health.exists_jobStarted
        rw [hh] at h
        cases h
        exact inv_job hinv (hstate.imp_right .inl)
  | finishJob =>
      obtain ⟨-, h⟩ := Option.ite_none_right_eq_some.mp hstep
      obtain ⟨health, hh, -, hstate⟩ := s.health.exists_jobFinished
      rw [hh] at h
      cases h
      exact inv_job hinv (hstate.imp_right .inr)

theorem Inv.shutdownKept (hinv : Inv s) : ShutdownKept s := by
  have hstopping : s.calls ≠ [] → s.health.state ∈ WorkerState.stopping := fun hcalls => by
    obtain ⟨p, hp⟩ := List.exists_mem_of_ne_nil _ hcalls
    exact ShutdownPoint.mem_stopping_of_mem_states (hinv.calls p hp).state
  refine ⟨fun e he => ?_, fun hcalls => ?_, fun hcalls wellFormed s' hstep => ?_,
    fun failedStart hf => ?_, fun hi => ?_⟩
  · have := (hinv.calls _ he).state
    cases this
  · exact WorkerState.not_mem_ready_of_mem_stopping (hstopping hcalls)
  · obtain ⟨hfetching, h⟩ := Option.ite_none_right_eq_some.mp hstep
    have hnotFailed := (hinv.start.consumes (.inr hfetching)).2
    have hd : s.health.isDraining := by
      have hmem := hstopping hcalls
      unfold WorkerHealth.isDraining
      revert hmem hnotFailed
      cases s.health.state <;> decide
    rw [WorkerRuntime.deliver, if_pos (.inl hd)] at h
    exact (Option.some.inj h).symm
  · have hok := hinv.calls _ hf
    refine ⟨hok.consumer rfl, fun r hr => hok.released r ?_ hr, ?_⟩
    · cases r <;> simp [ShutdownPoint.released]
    · have hstate := hok.state
      cases failedStart <;> simpa [ShutdownPoint.states] using hstate
  · refine hinv.drains ?_
    simpa [ShutdownPoint.states, WorkerHealth.isDraining] using (hinv.calls _ hi).state

theorem shutdown_raises_iff :
    (∃ e, s.shutdown.calls = s.calls ++ [.raised e]) ↔ s.health.state = .starting := by
  unfold WorkerRuntime.shutdown
  split
  · rename_i hd
    have : s.health.state ≠ .starting := fun h => by simp [WorkerHealth.isDraining, h] at hd
    simp [WorkerRuntime.called, this]
  · rename_i hd
    split
    · rename_i hf
      simp [WorkerRuntime.called, hf]
    · rename_i hf
      simp only [WorkerHealth.isDraining, not_or] at hd
      cases hr : s.health.markDraining with
      | error e =>
          obtain h | h | h := WorkerHealth.markDraining_eq_error_iff.mp ⟨e, hr⟩
          · simp [WorkerRuntime.called, h]
          · exact absurd h hd.2
          · exact absurd h hf
      | ok health =>
          have hne : s.health.state ≠ .starting := fun h => by
            obtain ⟨e, he⟩ := WorkerHealth.markDraining_eq_error_iff.mpr (.inl h)
            rw [hr] at he
            cases he
          cases s.consumer <;> simp [WorkerRuntime.called, hne]

theorem exists_run_onlyCall {call : ℕ} (hinv : Inv s) (hp : s.calls[call]? = some p) :
    ∃ s' p', runtimeMachine.Run (onlyCall call) s s' ∧ s'.calls[call]? = some p' ∧
      p'.remaining = 0 := by
  -- By induction on the awaits that are left.
  induction hn : p.remaining using Nat.strong_induction_on generalizing s p with
  | _ n ih =>
    obtain hn0 | hleft := Nat.eq_zero_or_pos p.remaining
    · exact ⟨s, p, .refl, hp, hn0⟩
    · obtain ⟨s₁, p₁, hstep, hinv₁, hcalls, hlt, -⟩ := inv_advance false hinv hp hleft
      have hp₁ : s₁.calls[call]? = some p₁ := by
        rw [hcalls, List.getElem?_set_self (List.getElem?_eq_some_iff.mp hp).1]
      obtain ⟨s', p', hrun, hp', h0⟩ := ih _ (hn ▸ hlt) hinv₁ hp₁ rfl
      exact ⟨s', p', .head ⟨.advance call false, rfl, hstep⟩ hrun, hp', h0⟩

/-- While no call of `shutdown` is made in `STARTING` and no load ends after the model has been
unloaded, the promise holds in every reachable state, and every call that has been made comes to its
end when it goes on. -/
theorem shutdown_completes (h : runtimeMachine.Reachable timely s) :
    ShutdownKept s ∧ ∀ call p, s.calls[call]? = some p →
      ∃ s' p', runtimeMachine.Run (onlyCall call) s s' ∧ s'.calls[call]? = some p' ∧
        ShutdownKept s' ∧ (p' = .ignored ∨ ∃ failedStart, p' = .finished failedStart) := by
  have hinv : Inv s := h.invariant (fun s hs => hs ▸ inv_init) fun e s s' hinv => inv_step e hinv
  refine ⟨hinv.shutdownKept, fun call p hp => ?_⟩
  obtain ⟨s', p', hrun, hp', h0⟩ := exists_run_onlyCall hinv hp
  have hinv' : Inv s' := by
    refine hrun.invariant (fun e s s' hinv honly => inv_step e hinv ?_) hinv
    cases e <;> first | exact honly.elim | trivial
  refine ⟨s', p', hrun, hp', hinv'.shutdownKept, ?_⟩
  have hnot : ∀ e, p' ≠ .raised e := fun e he =>
    hinv'.shutdownKept.not_raised e (he ▸ List.mem_of_getElem? hp')
  cases p' with
  | pausing | waiting | closing _ => cases h0
  | releasing r _ => cases r <;> cases h0
  | finished failedStart => exact .inr ⟨failedStart, rfl⟩
  | ignored => exact .inl rfl
  | raised e => exact absurd rfl (hnot e)

/-- A worker with a job in flight is told to stop. -/
theorem shutdown_completes_processing :
    ∃ s : WorkerRuntime, s.calls = [.pausing] ∧ s.health.state = .draining ∧
      s.health.inFlight = 1 ∧
      ∃ s' p', runtimeMachine.Run (onlyCall 0) s s' ∧ s'.calls[0]? = some p' ∧ ShutdownKept s' ∧
        (p' = .ignored ∨ ∃ failedStart, p' = .finished failedStart) := by
  have hreplay : (runtimeMachine.replay timely
      [.start, .connect true, .verified true true true, .loaded true, .deliver true, .shutdown]
      {}).map (fun s => (s.calls, s.health.state, s.health.inFlight)) =
        some ([.pausing], .draining, 1) := by
    decide
  obtain ⟨s, hrun, hs⟩ := Machine.exists_run_of_replay hreplay
  obtain ⟨hcalls, hstate, hinFlight⟩ := by simpa using hs
  refine ⟨s, hcalls, hstate, hinFlight, ?_⟩
  exact (shutdown_completes ⟨{}, rfl, hrun⟩).2 0 .pausing (by simp [hcalls])

/-- A worker that is told to stop while it verifies its dependencies raises, releases nothing, and
goes on to wait for jobs. -/
theorem not_forall_shutdownKept :
    ¬ ∀ s, runtimeMachine.Reachable Machine.anyEvent s → ShutdownKept s := by
  intro hall
  have hreplay : (runtimeMachine.replay Machine.anyEvent
      [.start, .shutdown, .connect true, .verified true true true, .loaded true] {}).map
        (fun s => (s.calls, s.health.state, s.consumer)) =
          some ([.raised ⟨.starting, .draining⟩], .idle, true) := by
    decide
  obtain ⟨s, hrun, hs⟩ := Machine.exists_run_of_replay hreplay
  obtain ⟨hcalls, hstate, -⟩ := by simpa using hs
  have hkept := hall s ⟨{}, rfl, hrun⟩
  exact hkept.not_ready (by simp [hcalls]) (by simp [WorkerHealth.isReady, hstate, WorkerState.ready])

end AudioBook.WorkerLifecycle
