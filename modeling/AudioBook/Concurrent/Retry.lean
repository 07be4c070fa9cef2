import AudioBook.Concurrent.Trace

/-!
# Repeated Executions

A queue hands the same task to a worker again and again. Every execution runs in the store that
the one before it left, changed by whoever else uses the store, and each has accidents of its own.

Main results:

- `Retried.neverLost_of_unharmed`: in unharmed executions of programs that settle what they start,
  nothing is lost.
-/

namespace Concurrent

variable {ι σ ℓ ε α : Type}

/-- One execution of the program that serves a request. -/
structure Attempt (ι σ ℓ ε α : Type) where
  input : ι
  events : List (Event σ ℓ ε)
  ending : Ending ε α

/-- Executions of the programs for inputs of one task, one after the other from a store, where
`others` says what the store can become while the worker does not access it. -/
inductive Retried (program : ι → Prog σ ℓ ε α) (others : σ → σ → Prop) (task : ι → Prop) :
    σ → List (Attempt ι σ ℓ ε α) → Prop
  | nil (s : σ) : Retried program others task s []
  | cons {s s' : σ} {attempt : Attempt ι σ ℓ ε α} {attempts : List (Attempt ι σ ℓ ε α)}
      (htask : task attempt.input)
      (hrun : (program attempt.input).Runs others s attempt.events attempt.ending s')
      (hrest : Retried program others task s' attempts) :
      Retried program others task s (attempt :: attempts)

/-- From an access that `starts` something on, nothing fails in this execution: all its accesses
are `ok`, and it is not cut off. -/
def Attempt.Unharmed (starts ok : Event σ ℓ ε → Prop) (attempt : Attempt ι σ ℓ ε α) : Prop :=
  ∀ pre x post, attempt.events = pre ++ x :: post → starts x →
    (∀ y ∈ x :: post, ok y) ∧ attempt.ending ≠ .crashed

/-- Nothing fails in this execution: all its accesses are `ok`, and it is not cut off. -/
def Attempt.Faultless (ok : Event σ ℓ ε → Prop) (attempt : Attempt ι σ ℓ ε α) : Prop :=
  (∀ y ∈ attempt.events, ok y) ∧ attempt.ending ≠ .crashed

theorem Attempt.Faultless.unharmed {starts ok : Event σ ℓ ε → Prop} {attempt : Attempt ι σ ℓ ε α}
    (h : attempt.Faultless ok) : attempt.Unharmed starts ok := by
  intro pre x post heq _
  refine ⟨fun y hy => h.1 y ?_, h.2⟩
  rw [heq]
  exact List.mem_append_right _ hy

/-- Every access that `starts` something is followed up: in its own execution, whose accesses
before and after it are `pre` and `post`, or in a later execution, by its accesses as a whole. -/
def NeverLost (starts : Event σ ℓ ε → Prop)
    (done : List (Event σ ℓ ε) → Event σ ℓ ε → List (Event σ ℓ ε) → Prop)
    (attempts : List (Attempt ι σ ℓ ε α)) : Prop :=
  ∀ attempt later, attempt :: later <:+ attempts →
    ∀ pre x post, attempt.events = pre ++ x :: post → starts x →
      done pre x post ∨ ∃ attempt' ∈ later, done pre x attempt'.events

namespace Retried

variable {program : ι → Prog σ ℓ ε α} {others : σ → σ → Prop} {task : ι → Prop} {s : σ}
  {attempts : List (Attempt ι σ ℓ ε α)}

theorem trace_of_mem (h : Retried program others task s attempts) {attempt : Attempt ι σ ℓ ε α}
    (hmem : attempt ∈ attempts) :
    task attempt.input ∧ (program attempt.input).Trace attempt.events attempt.ending := by
  induction h with
  | nil => cases hmem
  | cons htask hrun _ ih =>
    rcases List.mem_cons.mp hmem with rfl | hmem
    · exact ⟨htask, hrun.trace⟩
    · exact ih hmem

variable {starts ok : Event σ ℓ ε → Prop}
  {done : List (Event σ ℓ ε) → Event σ ℓ ε → List (Event σ ℓ ε) → Prop}

theorem neverLost_of_unharmed (h : Retried program others task s attempts)
    (hsettles : ∀ i, task i → (program i).Settles starts ok done)
    (hunharmed : ∀ attempt ∈ attempts, attempt.Unharmed starts ok) :
    NeverLost starts done attempts := by
  intro attempt later hsuffix pre x post heq hx
  have hmem : attempt ∈ attempts := hsuffix.subset List.mem_cons_self
  obtain ⟨htask, htrace⟩ := h.trace_of_mem hmem
  obtain ⟨hok, hending⟩ := hunharmed attempt hmem pre x post heq hx
  exact .inl (hsettles attempt.input htask _ _ htrace hending pre x post heq hx hok)

end Retried

end Concurrent
