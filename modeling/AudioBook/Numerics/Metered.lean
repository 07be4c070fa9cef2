import Mathlib.Data.Nat.Notation
import Mathlib.Tactic.Common

/-!
# Programs That Are Metered

A program that may raise an exception counts what it uses, also up to the exception. The rules say
what a program made of others uses.
-/

variable {ε α β : Type}

/-- Programs that raise `ε`, return `α` and count what they use. -/
abbrev Metered (ε α : Type) : Type := ExceptT ε (StateM ℕ) α

namespace Metered

def spend (amount : ℕ) : Metered ε Unit := modify (· + amount)

def spent (program : Metered ε α) : ℕ := (StateT.run program.run 0).2

/-- Whatever was used before, the program returns `result`, which is `none` if it raises an exception,
and uses `amount`. -/
def Spends (program : Metered ε α) (result : Option α) (amount : ℕ) : Prop :=
  ∀ used : ℕ, (StateT.run program.run used).1.toOption = result ∧
    (StateT.run program.run used).2 = used + amount

variable {program : Metered ε α} {next : α → Metered ε β} {result : Option α}
  {behind : Option β} {amount more : ℕ}

theorem Spends.of_eq (h : Spends program result amount) (heq : amount = more) :
    Spends program result more := heq ▸ h

theorem spends_pure (a : α) : Spends (pure a : Metered ε α) (some a) 0 := fun _ => ⟨rfl, rfl⟩

theorem spends_throw (e : ε) : Spends (throw e : Metered ε α) none 0 := fun _ => ⟨rfl, rfl⟩

theorem spends_liftExcept_error {result : Except ε α} {e : ε} (h : result = .error e) :
    Spends (liftExcept result : Metered ε α) none 0 := by
  rw [h]
  exact spends_throw e

theorem spends_liftExcept_ok {result : Except ε α} {a : α} (h : result = .ok a) :
    Spends (liftExcept result : Metered ε α) (some a) 0 := by
  rw [h]
  exact spends_pure a

theorem spends_spend (amount : ℕ) : Spends (spend amount : Metered ε Unit) (some ()) amount :=
  fun _ => ⟨rfl, rfl⟩

theorem Spends.bind_none (h : Spends program none amount) :
    Spends (program >>= next) none amount := by
  intro used
  obtain ⟨hresult, hamount⟩ := h used
  rw [ExceptT.run_bind, StateT.run_bind]
  rcases hrun : StateT.run program.run used with ⟨e | a, used'⟩
  · rw [hrun] at hamount
    exact ⟨rfl, hamount⟩
  · rw [hrun] at hresult
    cases hresult

theorem Spends.bind {a : α} (h : Spends program (some a) amount)
    (hnext : Spends (next a) behind more) :
    Spends (program >>= next) behind (amount + more) := by
  intro used
  obtain ⟨hresult, hamount⟩ := h used
  rw [ExceptT.run_bind, StateT.run_bind]
  rcases hrun : StateT.run program.run used with ⟨e | b, used'⟩
  · rw [hrun] at hresult
    cases hresult
  · rw [hrun] at hresult hamount
    obtain rfl : b = a := Option.some.inj hresult
    obtain rfl : used' = used + amount := hamount
    rw [← Nat.add_assoc]
    exact hnext (used + amount)

theorem Spends.spent (h : Spends program result amount) : spent program = amount :=
  (h 0).2.trans (Nat.zero_add amount)

end Metered
