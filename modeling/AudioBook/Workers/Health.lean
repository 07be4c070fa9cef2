import Mathlib.Data.Nat.Notation
import Mathlib.Tactic.Common

/-!
# The States of a Worker

The lifecycle of a Python worker: the table of the transitions that it may make, the states in
which its probes answer, and the operations of `WorkerHealth` on them.

## Main results

* `WorkerHealth.transitionTo_eq_error_iff`: a transition is refused exactly when it would change the
  state and the table does not list it.
* `WorkerHealth.markDraining_eq_error_iff`: which states refuse to drain.
* `WorkerHealth.mem_stopping_of_transitionTo`: a worker that has begun to stop goes on stopping.
-/

namespace AudioBook.WorkerLifecycle

inductive WorkerState
  | starting
  | healthy
  | modelReady
  | processing
  | idle
  | draining
  | stopped
  | failedStart
  deriving DecidableEq, Repr

namespace WorkerState

def allowed : WorkerState → List WorkerState
  | starting => [healthy, failedStart]
  | healthy => [modelReady, draining, failedStart]
  | modelReady => [processing, idle, draining]
  | processing => [idle, draining]
  | idle => [processing, draining]
  | draining => [stopped]
  | stopped => []
  | failedStart => []

/-- `_LIVE_STATES`. -/
def live : List WorkerState := [healthy, modelReady, processing, idle, draining]

/-- `_READY_STATES`. -/
def ready : List WorkerState := [modelReady, processing, idle]

/-- The states of a worker whose shutdown has begun, or that has nothing to shut down but what it
holds. -/
def stopping : List WorkerState := [draining, stopped, failedStart]

theorem mem_stopping_of_mem_allowed {current target : WorkerState} (h : current ∈ stopping)
    (htarget : target ∈ current.allowed) : target ∈ stopping := by
  revert h htarget
  cases current <;> cases target <;> decide

theorem not_mem_ready_of_mem_stopping {state : WorkerState} (h : state ∈ stopping) :
    state ∉ ready := by
  revert h
  cases state <;> decide

end WorkerState

structure InvalidTransitionError where
  current : WorkerState
  target : WorkerState
  deriving DecidableEq, Repr

/-- `WorkerHealth`: its state, the jobs in flight and the last error code. -/
structure WorkerHealth where
  state : WorkerState := .starting
  inFlight : ℕ := 0
  lastErrorCode : Option String := none
  deriving DecidableEq, Repr

namespace WorkerHealth

def isReady (h : WorkerHealth) : Prop := h.state ∈ WorkerState.ready

def isDraining (h : WorkerHealth) : Prop := h.state = .draining ∨ h.state = .stopped

instance (h : WorkerHealth) : Decidable h.isReady := inferInstanceAs (Decidable (_ ∈ _))

instance (h : WorkerHealth) : Decidable h.isDraining := inferInstanceAs (Decidable (_ ∨ _))

def transitionTo (target : WorkerState) (errorCode : Option String) (h : WorkerHealth) :
    Except InvalidTransitionError WorkerHealth :=
  if h.state = target then .ok h
  else if target ∉ h.state.allowed then .error ⟨h.state, target⟩
  else .ok { h with state := target, lastErrorCode := errorCode.or h.lastErrorCode }

def markDependenciesReady (h : WorkerHealth) : Except InvalidTransitionError WorkerHealth :=
  h.transitionTo .healthy none

def markModelReady (h : WorkerHealth) : Except InvalidTransitionError WorkerHealth :=
  h.transitionTo .modelReady none

def markFailedStart (errorCode : String) (h : WorkerHealth) :
    Except InvalidTransitionError WorkerHealth :=
  h.transitionTo .failedStart (some errorCode)

def markIdle (h : WorkerHealth) : Except InvalidTransitionError WorkerHealth :=
  h.transitionTo .idle none

def markDraining (h : WorkerHealth) : Except InvalidTransitionError WorkerHealth :=
  h.transitionTo .draining none

def markStopped (h : WorkerHealth) : Except InvalidTransitionError WorkerHealth :=
  h.transitionTo .stopped none

def jobStarted (h : WorkerHealth) : Except InvalidTransitionError WorkerHealth :=
  let h := { h with inFlight := h.inFlight + 1 }
  if h.state = .modelReady ∨ h.state = .idle then h.transitionTo .processing none else .ok h

def jobFinished (h : WorkerHealth) : Except InvalidTransitionError WorkerHealth :=
  let h := { h with inFlight := h.inFlight - 1 }
  if h.inFlight = 0 ∧ h.state = .processing then h.transitionTo .idle none else .ok h

variable {h h' : WorkerHealth} {target : WorkerState} {errorCode : Option String}
  {e : InvalidTransitionError}

/-! ## What a transition does -/

theorem state_of_transitionTo (hh : h.transitionTo target errorCode = .ok h') :
    h'.state = target ∧ (h.state = target ∨ target ∈ h.state.allowed) ∧
      h'.inFlight = h.inFlight := by
  unfold transitionTo at hh
  split at hh
  · rename_i hs
    cases hh
    exact ⟨hs, .inl hs, rfl⟩
  · split at hh
    · cases hh
    · rename_i hallowed
      cases hh
      exact ⟨rfl, .inr (not_not.mp hallowed), rfl⟩

theorem transitionTo_eq_error_iff :
    h.transitionTo target errorCode = .error e ↔
      h.state ≠ target ∧ target ∉ h.state.allowed ∧ e = ⟨h.state, target⟩ := by
  unfold transitionTo
  split
  · rename_i hs
    simp [hs]
  · rename_i hs
    split
    · rename_i hallowed
      simp [hs, hallowed, eq_comm]
    · rename_i hallowed
      simp [not_not.mp hallowed]

theorem exists_transitionTo (h : WorkerHealth) (errorCode : Option String)
    (hallowed : h.state = target ∨ target ∈ h.state.allowed) :
    ∃ h', h.transitionTo target errorCode = .ok h' := by
  cases hr : h.transitionTo target errorCode with
  | ok h' => exact ⟨h', rfl⟩
  | error e =>
      obtain ⟨hne, hnot, -⟩ := transitionTo_eq_error_iff.mp hr
      exact absurd hallowed (not_or.mpr ⟨hne, hnot⟩)

theorem mem_stopping_of_transitionTo (hh : h.transitionTo target errorCode = .ok h')
    (hs : h.state ∈ WorkerState.stopping) : h'.state ∈ WorkerState.stopping := by
  obtain ⟨rfl, hsame | hallowed, -⟩ := state_of_transitionTo hh
  · rwa [← hsame]
  · exact WorkerState.mem_stopping_of_mem_allowed hs hallowed

theorem markDraining_eq_error_iff :
    (∃ e, h.markDraining = .error e) ↔
      h.state = .starting ∨ h.state = .stopped ∨ h.state = .failedStart := by
  simp only [markDraining, transitionTo_eq_error_iff, exists_and_left, exists_eq, and_true]
  cases h.state <;> decide

theorem exists_markStopped (hs : h.isDraining) :
    ∃ h', h.markStopped = .ok h' ∧ h'.state = .stopped ∧ h'.inFlight = h.inFlight := by
  have hallowed : h.state = .stopped ∨ .stopped ∈ h.state.allowed := by
    obtain hs | hs := hs
    · rw [hs]
      decide
    · exact .inl hs
  obtain ⟨h', hh'⟩ := exists_transitionTo h none hallowed
  exact ⟨h', hh', (state_of_transitionTo hh').1, (state_of_transitionTo hh').2.2⟩

/-! ## What the start and the end of a job do -/

theorem exists_jobStarted (h : WorkerHealth) :
    ∃ h', h.jobStarted = .ok h' ∧ h'.inFlight = h.inFlight + 1 ∧
      (h'.state = h.state ∨
        (h.state = .modelReady ∨ h.state = .idle) ∧ h'.state = .processing) := by
  by_cases hs : h.state = .modelReady ∨ h.state = .idle
  · have hallowed : .processing ∈ h.state.allowed := by
      obtain hs | hs := hs <;> rw [hs] <;> decide
    obtain ⟨h', hh'⟩ := exists_transitionTo { h with inFlight := h.inFlight + 1 } none (.inr hallowed)
    obtain ⟨hstate, -, hin⟩ := state_of_transitionTo hh'
    exact ⟨h', by rw [jobStarted, if_pos hs, hh'], hin, .inr ⟨hs, hstate⟩⟩
  · exact ⟨{ h with inFlight := h.inFlight + 1 }, if_neg hs, rfl, .inl rfl⟩

theorem exists_jobFinished (h : WorkerHealth) :
    ∃ h', h.jobFinished = .ok h' ∧ h'.inFlight = h.inFlight - 1 ∧
      (h'.state = h.state ∨ h.state = .processing ∧ h'.state = .idle) := by
  by_cases hs : h.inFlight - 1 = 0 ∧ h.state = .processing
  · have hallowed : .idle ∈ h.state.allowed := by
      rw [hs.2]
      decide
    obtain ⟨h', hh'⟩ := exists_transitionTo { h with inFlight := h.inFlight - 1 } none (.inr hallowed)
    obtain ⟨hstate, -, hin⟩ := state_of_transitionTo hh'
    exact ⟨h', by rw [jobFinished, if_pos hs, hh'], hin, .inr ⟨hs.2, hstate⟩⟩
  · exact ⟨{ h with inFlight := h.inFlight - 1 }, if_neg hs, rfl, .inl rfl⟩

end WorkerHealth

end AudioBook.WorkerLifecycle
