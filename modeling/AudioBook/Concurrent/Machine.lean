import Mathlib.Logic.Relation
import Mathlib.Tactic.Common

/-!
# Machines With Labelled Steps

A system that is described as a whole: its state and, for every event that may come next, the state
after it. Unlike the programs of a `System`, its events are not cut out of the code of clients, so a
client that holds something between two of its events keeps it in the state.

- `Machine`: initial states and a step function, which says when an event is not possible.
- `Machine.Run` and `Machine.Reachable`: sequences of events, restricted to those that a predicate
  allows.
- `Machine.Reachable.invariant`: what every allowed event keeps holds in every reachable state.
- `Machine.run_of_replay`: a replay of a list of events is a run.
-/

namespace Concurrent

variable {σ ℓ : Type}

structure Machine (σ ℓ : Type) where
  init : σ → Prop
  /-- The state after an event, if the event is possible. -/
  step : ℓ → σ → Option σ

namespace Machine

variable (M : Machine σ ℓ) (allows : ℓ → σ → Prop)

/-- One allowed event. -/
def Step (s s' : σ) : Prop := ∃ l, allows l s ∧ M.step l s = some s'

/-- Allowed events, one after the other. -/
abbrev Run : σ → σ → Prop := Relation.ReflTransGen (M.Step allows)

/-- What allowed events reach from an initial state. -/
def Reachable (s : σ) : Prop := ∃ s₀, M.init s₀ ∧ M.Run allows s₀ s

/-- The state after a list of events, if all of them are possible and allowed. -/
def replay [∀ l s, Decidable (allows l s)] : List ℓ → σ → Option σ
  | [], s => some s
  | l :: ls, s => if allows l s then (M.step l s).bind fun s' => replay ls s' else none

def anyEvent : ℓ → σ → Prop := fun _ _ => True

instance (l : ℓ) (s : σ) : Decidable (anyEvent l s) := isTrue trivial

variable {M allows} {s s' : σ}

theorem Reachable.any (h : M.Reachable allows s) : M.Reachable anyEvent s := by
  obtain ⟨s₀, hinit, hrun⟩ := h
  refine ⟨s₀, hinit, Relation.ReflTransGen.mono (fun _ _ hstep => ?_) _ _ hrun⟩
  obtain ⟨l, -, hl⟩ := hstep
  exact ⟨l, trivial, hl⟩

theorem Run.invariant {P : σ → Prop}
    (hstep : ∀ l s s', P s → allows l s → M.step l s = some s' → P s') (hrun : M.Run allows s s')
    (hs : P s) : P s' := by
  induction hrun with
  | refl => exact hs
  | tail _ hlast ih =>
      obtain ⟨l, hl, hlast⟩ := hlast
      exact hstep l _ _ ih hl hlast

theorem Reachable.invariant {P : σ → Prop} (h : M.Reachable allows s)
    (hinit : ∀ s, M.init s → P s)
    (hstep : ∀ l s s', P s → allows l s → M.step l s = some s' → P s') : P s := by
  obtain ⟨s₀, hs₀, hrun⟩ := h
  exact Run.invariant hstep hrun (hinit s₀ hs₀)

theorem replay_cons [∀ l s, Decidable (allows l s)] {l : ℓ} (hl : allows l s)
    (hstep : M.step l s = some s') (ls : List ℓ) :
    M.replay allows (l :: ls) s = M.replay allows ls s' := by
  rw [replay, if_pos hl, hstep, Option.bind_some]

theorem replay_append [∀ l s, Decidable (allows l s)] {ls : List ℓ}
    (h : M.replay allows ls s = some s') (ls' : List ℓ) :
    M.replay allows (ls ++ ls') s = M.replay allows ls' s' := by
  induction ls generalizing s with
  | nil =>
      cases h
      rfl
  | cons l ls ih =>
      rw [replay, Option.ite_none_right_eq_some, Option.bind_eq_some_iff] at h
      obtain ⟨hl, s₁, hs₁, h⟩ := h
      rw [List.cons_append, replay_cons hl hs₁]
      exact ih h

theorem run_of_replay [∀ l s, Decidable (allows l s)] {ls : List ℓ}
    (h : M.replay allows ls s = some s') : M.Run allows s s' := by
  induction ls generalizing s with
  | nil =>
      cases h
      exact .refl
  | cons l ls ih =>
      rw [replay, Option.ite_none_right_eq_some, Option.bind_eq_some_iff] at h
      obtain ⟨hl, s₁, hs₁, h⟩ := h
      exact .head ⟨l, hl, hs₁⟩ (ih h)

theorem exists_run_of_replay [∀ l s, Decidable (allows l s)] {β : Type} {ls : List ℓ} {f : σ → β}
    {b : β} (h : (M.replay allows ls s).map f = some b) : ∃ s', M.Run allows s s' ∧ f s' = b := by
  obtain ⟨s', hs', hb⟩ := Option.map_eq_some_iff.mp h
  exact ⟨s', run_of_replay hs', hb⟩

end Machine

end Concurrent
