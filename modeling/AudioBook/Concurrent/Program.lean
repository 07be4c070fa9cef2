import Mathlib.Order.Defs.Unbundled
import Mathlib.Tactic.Common

/-!
# Programs Over a Shared Store

The code of one client of a shared store (a request handler, a queue worker), cut into the
atomic accesses it makes. Between two accesses other clients may change the store in any way,
so a value read by one access is only known to have been true when it was read.

Every access may also fail from outside the program: it can be refused before it takes effect,
or take effect and lose its acknowledgement. Both raise an exception that the program may
catch.

Main results:

- `Prog.always_bind` and `Prog.always_tryCatch`: `Always` follows the structure of a program.
-/

namespace Concurrent

variable {σ ℓ ε α β γ : Type}

/-- A program over a shared store `σ`, whose accesses carry labels `ℓ`, raising `ε` and
returning `α`. -/
inductive Prog (σ ℓ ε α : Type) : Type
  | ret (a : α)
  | raise (e : ε)
  /-- Change the store by `w` in one step and go on with what the store was before; if the
  access fails from outside, go on with the exception it raised. -/
  | access (l : ℓ) (w : σ → σ) (next : σ → Prog σ ℓ ε α) (onFault : ε → Prog σ ℓ ε α)

namespace Prog

/-- Run a program, then another one on its result. -/
def bind : Prog σ ℓ ε α → (α → Prog σ ℓ ε β) → Prog σ ℓ ε β
  | ret a, f => f a
  | raise e, _ => raise e
  | access l w next onFault, f =>
      access l w (fun s => bind (next s) f) (fun e => bind (onFault e) f)

/-- Run a program and handle the exception it raises. -/
def tryCatch : Prog σ ℓ ε α → (ε → Prog σ ℓ ε α) → Prog σ ℓ ε α
  | ret a, _ => ret a
  | raise e, handler => handler e
  | access l w next onFault, handler =>
      access l w (fun s => tryCatch (next s) handler) (fun e => tryCatch (onFault e) handler)

instance : Monad (Prog σ ℓ ε) where
  pure := ret
  bind := bind

instance : MonadExceptOf ε (Prog σ ℓ ε) where
  throw := raise
  tryCatch := tryCatch

theorem bind_assoc (p : Prog σ ℓ ε α) (f : α → Prog σ ℓ ε β) (g : β → Prog σ ℓ ε γ) :
    p >>= f >>= g = p >>= fun a => f a >>= g := by
  induction p with
  | ret a => rfl
  | raise e => rfl
  | access l w next onFault ihn ihf =>
    show access l w (fun s => next s >>= f >>= g) (fun e => onFault e >>= f >>= g) = _
    simp only [ihn, ihf]
    rfl

/-- Read a value out of the store. -/
def read (l : ℓ) (f : σ → α) : Prog σ ℓ ε α :=
  access l id (fun s => ret (f s)) raise

/-- The store after a transaction: unchanged when it raises. -/
def commit (t : StateT σ (Except ε) α) (s : σ) : σ :=
  match t s with
  | .ok (_, s') => s'
  | .error _ => s

/-- A transaction commits on a store. -/
def Commits (t : StateT σ (Except ε) α) (s : σ) : Prop :=
  ∃ a s', t s = .ok (a, s')

instance (t : StateT σ (Except ε) α) (s : σ) : Decidable (Commits t s) :=
  match h : t s with
  | .ok (a, s') => isTrue ⟨a, s', h⟩
  | .error _ => isFalse (by rintro ⟨a, s', hok⟩; simp [h] at hok)

/-- How a program goes on after a transaction. -/
def outcome (t : StateT σ (Except ε) α) (s : σ) : Prog σ ℓ ε α :=
  match t s with
  | .ok (a, _) => ret a
  | .error e => raise e

/-- Run a transaction in one step, all or nothing. -/
def atomically (l : ℓ) (t : StateT σ (Except ε) α) : Prog σ ℓ ε α :=
  access l (commit t) (outcome t) raise

variable {t : StateT σ (Except ε) α}

theorem commit_of_ok {s s' : σ} {a : α} (h : t s = .ok (a, s')) : commit t s = s' := by
  simp [commit, h]

theorem commit_of_error {s : σ} {e : ε} (h : t s = .error e) : commit t s = s := by
  simp [commit, h]

theorem commit_of_not_commits {s : σ} (h : ¬ Commits t s) : commit t s = s := by
  cases ht : t s with
  | ok p => exact absurd ⟨p.1, p.2, ht⟩ h
  | error e => exact commit_of_error ht

/-- Run a program alone on a store; `outage` says which accesses are refused, and with what. -/
def evaluate (outage : ℓ → Option ε) : Prog σ ℓ ε α → σ → Except ε α × σ
  | ret a, s => (.ok a, s)
  | raise e, s => (.error e, s)
  | access l w next onFault, s =>
      match outage l with
      | none => evaluate outage (next s) (w s)
      | some e => evaluate outage (onFault e) s

section evaluate

variable {outage : ℓ → Option ε} {p : Prog σ ℓ ε α} {f : α → Prog σ ℓ ε β}
  {handler : ε → Prog σ ℓ ε α} {s s' : σ} {a : α} {e : ε}

@[simp]
theorem evaluate_pure : (pure a : Prog σ ℓ ε α).evaluate outage s = (.ok a, s) := rfl

theorem evaluate_bind :
    (p >>= f).evaluate outage s
      = match p.evaluate outage s with
        | (.ok a, s') => (f a).evaluate outage s'
        | (.error e, s') => (.error e, s') := by
  induction p generalizing s with
  | ret a => rfl
  | raise e => rfl
  | access l w next onFault ihn ihf =>
    show (access l w (fun s => next s >>= f) fun e => onFault e >>= f).evaluate outage s = _
    simp only [evaluate]
    cases outage l with
    | none => exact ihn s
    | some e => exact ihf e

theorem evaluate_bind_of_ok (h : p.evaluate outage s = (.ok a, s')) :
    (p >>= f).evaluate outage s = (f a).evaluate outage s' := by
  rw [evaluate_bind, h]

theorem evaluate_tryCatch :
    (tryCatchThe ε p handler).evaluate outage s
      = match p.evaluate outage s with
        | (.ok a, s') => (.ok a, s')
        | (.error e, s') => (handler e).evaluate outage s' := by
  induction p generalizing s with
  | ret a => rfl
  | raise e => rfl
  | access l w next onFault ihn ihf =>
    show (access l w (fun s => tryCatchThe ε (next s) handler)
      fun e => tryCatchThe ε (onFault e) handler).evaluate outage s = _
    simp only [evaluate]
    cases outage l with
    | none => exact ihn s
    | some e => exact ihf e

theorem evaluate_read {l : ℓ} {g : σ → α} (h : outage l = none) :
    (read l g : Prog σ ℓ ε α).evaluate outage s = (.ok (g s), s) := by
  simp only [read, evaluate, h, id_eq]

theorem evaluate_read_of_outage {l : ℓ} {g : σ → α} (h : outage l = some e) :
    (read l g : Prog σ ℓ ε α).evaluate outage s = (.error e, s) := by
  simp only [read, evaluate, h]

theorem evaluate_atomically {l : ℓ} {t : StateT σ (Except ε) α} (h : outage l = none)
    (ht : t s = .ok (a, s')) :
    (atomically l t : Prog σ ℓ ε α).evaluate outage s = (.ok a, s') := by
  simp only [atomically, evaluate, h, commit_of_ok ht, outcome, ht]

theorem evaluate_read_bind {l : ℓ} {g : σ → α} (h : outage l = none) :
    (read l g >>= f).evaluate outage s = (f (g s)).evaluate outage s :=
  evaluate_bind_of_ok (evaluate_read h)

theorem evaluate_bind_eq_ok_iff {b : β} :
    (p >>= f).evaluate outage s = (.ok b, s') ↔
      ∃ a s₁, p.evaluate outage s = (.ok a, s₁) ∧ (f a).evaluate outage s₁ = (.ok b, s') := by
  rw [evaluate_bind]
  rcases p.evaluate outage s with ⟨e | a, s₁⟩
  · simp
  · simp

theorem evaluate_access_eq_ok_iff {l : ℓ} {w : σ → σ} {g : σ → α} :
    (access l w (fun s => ret (g s)) raise : Prog σ ℓ ε α).evaluate outage s = (.ok a, s') ↔
      outage l = none ∧ a = g s ∧ s' = w s := by
  rw [evaluate]
  cases outage l with
  | some e => simp [evaluate]
  | none => simp [evaluate, Prod.ext_iff, eq_comm]

theorem evaluate_atomically_eq_ok_iff {l : ℓ} {t : StateT σ (Except ε) α} :
    (atomically l t : Prog σ ℓ ε α).evaluate outage s = (.ok a, s') ↔
      outage l = none ∧ t s = .ok (a, s') := by
  rw [atomically, evaluate]
  cases outage l with
  | some e => simp [evaluate]
  | none =>
    simp only [outcome, commit, true_and]
    cases t s with
    | ok r => simp [evaluate, Prod.ext_iff]
    | error e => simp [evaluate]

end evaluate

/-- A property `P` of the label and the effect of every access a program can make. -/
def Always (P : ℓ → (σ → σ) → Prop) : Prog σ ℓ ε α → Prop
  | ret _ => True
  | raise _ => True
  | access l w next onFault =>
      P l w ∧ (∀ s, Always P (next s)) ∧ ∀ e, Always P (onFault e)

variable {P : ℓ → (σ → σ) → Prop} {p : Prog σ ℓ ε α}

theorem Always.mono {P' : ℓ → (σ → σ) → Prop} (hP : ∀ l w, P l w → P' l w) (h : Always P p) :
    Always P' p := by
  induction p with
  | ret a => trivial
  | raise e => trivial
  | access l w next onFault ihn ihf =>
    exact ⟨hP l w h.1, fun s => ihn s (h.2.1 s), fun e => ihf e (h.2.2 e)⟩

@[simp]
theorem always_pure (a : α) : Always P (pure a : Prog σ ℓ ε α) := trivial

@[simp]
theorem always_throw (e : ε) : Always P (throw e : Prog σ ℓ ε α) := trivial

theorem always_bind {f : α → Prog σ ℓ ε β} (hp : Always P p) (hf : ∀ a, Always P (f a)) :
    Always P (p >>= f) := by
  induction p with
  | ret a => exact hf a
  | raise e => trivial
  | access l w next onFault ihn ihf =>
    exact ⟨hp.1, fun s => ihn s (hp.2.1 s), fun e => ihf e (hp.2.2 e)⟩

theorem always_tryCatch {handler : ε → Prog σ ℓ ε α} (hp : Always P p)
    (hh : ∀ e, Always P (handler e)) : Always P (tryCatchThe ε p handler) := by
  induction p with
  | ret a => trivial
  | raise e => exact hh e
  | access l w next onFault ihn ihf =>
    exact ⟨hp.1, fun s => ihn s (hp.2.1 s), fun e => ihf e (hp.2.2 e)⟩

theorem always_read {l : ℓ} {f : σ → α} (h : P l id) : Always P (read l f : Prog σ ℓ ε α) :=
  ⟨h, fun _ => trivial, fun _ => trivial⟩

theorem always_read_bind {l : ℓ} {f : σ → α} {k : α → Prog σ ℓ ε β} (h : P l id)
    (hk : ∀ s, Always P (k (f s))) : Always P (read l f >>= k) :=
  ⟨h, hk, fun _ => trivial⟩

theorem evaluate_related {R : σ → σ → Prop} [IsPreorder σ R] {outage : ℓ → Option ε}
    (h : p.Always fun _ w => ∀ s, R s (w s)) (s : σ) : R s (p.evaluate outage s).2 := by
  induction p generalizing s with
  | ret a => exact refl_of R s
  | raise e => exact refl_of R s
  | access l w next onFault ihn ihf =>
    rw [evaluate]
    cases outage l with
    | none => exact trans_of R (h.1 s) (ihn s (h.2.1 s) (w s))
    | some e => exact ihf e (h.2.2 e) s

theorem always_atomically {l : ℓ} (h : P l (commit t)) :
    Always P (atomically l t : Prog σ ℓ ε α) := by
  refine ⟨h, fun s => ?_, fun _ => trivial⟩
  rw [outcome]
  split <;> trivial

end Prog

end Concurrent
