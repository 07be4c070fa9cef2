import AudioBook.Concurrent.Triples

/-!
# Systems of Uniform Accesses

When every access of every program of a system is of one kind, a step of the system either leaves
the store alone or is one such access. What each of them preserves then holds in every reachable
configuration.

- `System.store_of_step`: what a step does to the store.
- `System.Reachable.invariant_of_always`: the induction over a run.
-/

namespace Concurrent

variable {σ ι ℓ ε : Type} {P : ℓ → (σ → σ) → Prop} {admits : ℓ → σ → Prop}

namespace System

variable {sys : System σ ι ℓ ε} {c c' : Config σ ℓ ε}

/-- What the threads of a configuration still do is of the kind. -/
def Uniform (P : ℓ → (σ → σ) → Prop) (c : Config σ ℓ ε) : Prop := ∀ p ∈ c.threads, p.Always P

theorem Uniform.set (h : Uniform P c) {p : Prog σ ℓ ε Unit} (hp : p.Always P) (s : σ) (n : ℕ) :
    Uniform P ⟨s, c.threads.set n p⟩ := by
  intro q hq
  rcases List.mem_or_eq_of_mem_set hq with hq | rfl
  · exact h q hq
  · exact hp

theorem Uniform.store_of_step (h : Uniform P c) (hstep : sys.Step admits c c') :
    c'.store = c.store ∨
      ∃ l w, P l w ∧ admits l c.store ∧ c'.store = w c.store := by
  cases hstep with
  | spawn i hen => exact .inl rfl
  | proceed hn ha => exact .inr ⟨_, _, (h _ (List.mem_of_getElem? hn)).1, ha, rfl⟩
  | refuse e hn => exact .inl rfl
  | lose e hn ha => exact .inr ⟨_, _, (h _ (List.mem_of_getElem? hn)).1, ha, rfl⟩
  | crash n => exact .inl rfl

theorem Uniform.step (hsys : ∀ i, (sys.program i).Always P) (h : Uniform P c)
    (hstep : sys.Step admits c c') : Uniform P c' := by
  cases hstep with
  | spawn i hen =>
      intro p hp
      rcases List.mem_append.mp hp with hp | hp
      · exact h p hp
      · rw [List.mem_singleton.mp hp]
        exact hsys i
  | proceed hn ha => exact h.set ((h _ (List.mem_of_getElem? hn)).2.1 _) _ _
  | refuse e hn => exact h.set ((h _ (List.mem_of_getElem? hn)).2.2 e) _ _
  | lose e hn ha => exact h.set ((h _ (List.mem_of_getElem? hn)).2.2 e) _ _
  | crash n => exact fun p hp => h p (List.mem_of_mem_eraseIdx hp)

theorem Reachable.uniform (hsys : ∀ i, (sys.program i).Always P)
    (hc : sys.Reachable admits c) : Uniform P c := by
  obtain ⟨s₀, -, hrun⟩ := hc
  induction hrun with
  | refl => exact fun p hp => absurd hp List.not_mem_nil
  | tail _ hstep ih => exact ih.step hsys hstep

theorem Reachable.invariant_of_always (hsys : ∀ i, (sys.program i).Always P)
    (hc : sys.Reachable admits c) {F : σ → Prop} (hinit : ∀ s, sys.init s → F s)
    (haccess : ∀ l w s, P l w → admits l s → F s → F (w s)) : F c.store := by
  obtain ⟨s₀, hs₀, hrun⟩ := hc
  induction hrun with
  | refl => exact hinit s₀ hs₀
  | tail hrun hstep ih =>
      have huniform := Reachable.uniform hsys ⟨s₀, hs₀, hrun⟩
      rcases huniform.store_of_step hstep with hsame | ⟨l, w, hP, hadmits, heq⟩
      · rw [hsame]
        exact ih
      · rw [heq]
        exact haccess l w _ hP hadmits ih

end System

namespace Prog

theorem always_relabel {α ℓ' ε' : Type} {P' : ℓ' → (σ → σ) → Prop} {label : ℓ → ℓ'} {up : ε → ε'}
    {down : ε' → ε} {p : Prog σ ℓ ε α} (h : p.Always fun l w => P' (label l) w) :
    (p.relabel label up down).Always P' := by
  induction p with
  | ret a => trivial
  | raise e => trivial
  | access l w next onFault ihn ihf =>
      exact ⟨h.1, fun s => ihn s (h.2.1 s), fun e => ihf (down e) (h.2.2 (down e))⟩

section parts

variable {α τ ℓ' : Type} {P : ℓ' → (σ → σ) → Prop} {label : ℓ → ℓ'} {get : σ → τ}
  {set : τ → σ → σ} {p : Prog τ ℓ ε α}

theorem always_onPart (h : p.Always fun l w => P (label l) fun s => set (w (get s)) s) :
    (p.onPart label get set).Always P := by
  induction p with
  | ret a => trivial
  | raise e => trivial
  | access l w next onFault ihn ihf =>
      exact ⟨h.1, fun s => ihn (get s) (h.2.1 (get s)), fun e => ihf e (h.2.2 e)⟩

theorem evaluate_onPart (label : ℓ → ℓ') (get : σ → τ) (set : τ → σ → σ) (p : Prog τ ℓ ε α)
    (hget : ∀ a s, get (set a s) = a) (hset : ∀ a b s, set b (set a s) = set b s)
    (hself : ∀ s, set (get s) s = s) (s : σ) :
    (p.onPart label get set).evaluate (fun _ => none) s =
      ((p.evaluate (fun _ => none) (get s)).1,
        set (p.evaluate (fun _ => none) (get s)).2 s) := by
  induction p generalizing s with
  | ret a => exact Prod.ext rfl (hself s).symm
  | raise e => exact Prod.ext rfl (hself s).symm
  | access l w next onFault ihn ihf =>
      rw [onPart, evaluate, evaluate]
      dsimp only
      rw [ihn, hget, hset]

end parts

end Prog

end Concurrent
