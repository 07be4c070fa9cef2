import AudioBook.Concurrent.Interleaving
import Mathlib.Algebra.BigOperators.Group.List.Basic

/-!
# Ownership in Interleaved Runs

A contract treats all programs alike, so it cannot say that one of them has a right that no other
has. Here every running program holds a share, and a `Ledger` says which totals of the shares fit
a store. A program may rely on its own share: whatever the others do, they do it with theirs.

A program that dies takes its share with it; the share stays in the total.

Main results:

- `Ledger.wp_bind`, `Ledger.wp_tryCatch`, `Ledger.wp_read`, `Ledger.wp_atomically`: the rules of
  programs.
- `System.Secures.run_beside`: a run leaves such a share alone.
- `System.Secures.fits_of_reachable`: what is held fits the store of every reachable
  configuration.
-/

namespace Concurrent

variable {σ ι ℓ ε α β γ : Type}

/-- Which totals of the shares fit a store, and the accesses considered. -/
structure Ledger (σ ℓ γ : Type) where
  /-- The accesses considered, by their label and the store they meet. -/
  admits : ℓ → σ → Prop
  fits : σ → γ → Prop

namespace Ledger

variable [AddCommMonoid γ] (L : Ledger σ ℓ γ)

/-- The weakest precondition on the share `g` of a program: whatever the others hold, each access
leaves a store that fits the others' shares and some new share of the program, and the program
ends with a share in `Q` or raises with one in `E`. -/
def wp : Prog σ ℓ ε α → (α → γ → Prop) → (ε → γ → Prop) → γ → Prop
  | .ret a, Q, _, g => Q a g
  | .raise e, _, E, g => E e g
  | .access l w next onFault, Q, E, g =>
      ∀ s others, L.fits s (g + others) →
        (L.admits l s →
          (∃ g', L.fits (w s) (g' + others) ∧ wp (next s) Q E g') ∧
            ∀ e, ∃ g', L.fits (w s) (g' + others) ∧ wp (onFault e) Q E g') ∧
        ∀ e, ∃ g', L.fits s (g' + others) ∧ wp (onFault e) Q E g'

/-- The program keeps the ledger, however it ends. -/
def Safe (p : Prog σ ℓ ε α) (g : γ) : Prop :=
  L.wp p (fun _ _ => True) (fun _ _ => True) g

variable {L} {Q Q' : α → γ → Prop} {E E' : ε → γ → Prop} {g : γ}

variable {p : Prog σ ℓ ε α} {f : α → Prog σ ℓ ε β}

theorem wp_bind {Q : β → γ → Prop} :
    L.wp (p >>= f) Q E g ↔ L.wp p (fun a => L.wp (f a) Q E) E g := by
  induction p generalizing g with
  | ret a => rfl
  | raise e => rfl
  | access l w next onFault ihn ihf =>
    change L.wp (.access l w (fun s => next s >>= f) (fun e => onFault e >>= f)) Q E g ↔ _
    simp only [wp, ihn, ihf]

theorem wp_tryCatch {handler : ε → Prog σ ℓ ε α} :
    L.wp (tryCatchThe ε p handler) Q E g ↔ L.wp p Q (fun e => L.wp (handler e) Q E) g := by
  induction p generalizing g with
  | ret a => rfl
  | raise e => rfl
  | access l w next onFault ihn ihf =>
    change L.wp (.access l w (fun s => tryCatchThe ε (next s) handler)
      (fun e => tryCatchThe ε (onFault e) handler)) Q E g ↔ _
    simp only [wp, ihn, ihf]

theorem wp_mono (hQ : ∀ a g, Q a g → Q' a g) (hE : ∀ e g, E e g → E' e g) (h : L.wp p Q E g) :
    L.wp p Q' E' g := by
  induction p generalizing g with
  | ret a => exact hQ a g h
  | raise e => exact hE e g h
  | access l w next onFault ihn ihf =>
    intro s others hfits
    obtain ⟨hdone, hrefused⟩ := h s others hfits
    refine ⟨fun ha => ⟨?_, fun e => ?_⟩, fun e => ?_⟩
    · obtain ⟨g', hg', hnext⟩ := (hdone ha).1
      exact ⟨g', hg', ihn s hnext⟩
    · obtain ⟨g', hg', hlost⟩ := (hdone ha).2 e
      exact ⟨g', hg', ihf e hlost⟩
    · obtain ⟨g', hg', hfault⟩ := hrefused e
      exact ⟨g', hg', ihf e hfault⟩

theorem wp_read {l : ℓ} {f : σ → α}
    (h : ∀ s others, L.fits s (g + others) → L.admits l s →
      ∃ g', L.fits s (g' + others) ∧ Q (f s) g')
    (hE : ∀ e, E e g) : L.wp (Prog.read l f : Prog σ ℓ ε α) Q E g := by
  intro s others hfits
  exact ⟨fun ha => ⟨h s others hfits ha, fun e => ⟨g, hfits, hE e⟩⟩, fun e => ⟨g, hfits, hE e⟩⟩

theorem wp_atomically {l : ℓ} {t : StateT σ (Except ε) α} {G : α → γ → Prop}
    (h : ∀ s others a s', L.fits s (g + others) → L.admits l s → t s = .ok (a, s') →
      ∃ g', L.fits s' (g' + others) ∧ G a g')
    (hQ : ∀ a g', G a g' → Q a g') (hlost : ∀ e a g', G a g' → E e g') (hE : ∀ e, E e g) :
    L.wp (Prog.atomically l t : Prog σ ℓ ε α) Q E g := by
  intro s others hfits
  refine ⟨fun ha => ?_, fun e => ⟨g, hfits, hE e⟩⟩
  rw [Prog.outcome]
  cases ht : t s with
  | ok p =>
    obtain ⟨g', hg', hG⟩ := h s others p.1 p.2 hfits ha ht
    rw [Prog.commit_of_ok ht]
    exact ⟨⟨g', hg', hQ p.1 g' hG⟩, fun e => ⟨g', hg', hlost e p.1 g' hG⟩⟩
  | error e =>
    rw [Prog.commit_of_error ht]
    exact ⟨⟨g, hfits, hE e⟩, fun e' => ⟨g, hfits, hE e'⟩⟩

theorem wp_of_always
    (h : p.Always fun l w => ∀ s total, L.admits l s → L.fits s total → L.fits (w s) total)
    (hQ : ∀ a, Q a g) (hE : ∀ e, E e g) : L.wp p Q E g := by
  induction p with
  | ret a => exact hQ a
  | raise e => exact hE e
  | access l w next onFault ihn ihf =>
    obtain ⟨hw, hnext, hfault⟩ := h
    intro s others hfits
    refine ⟨fun ha => ?_, fun e => ⟨g, hfits, ihf e (hfault e)⟩⟩
    have hfits' : L.fits (w s) (g + others) := hw s _ ha hfits
    exact ⟨⟨g, hfits', ihn s (hnext s)⟩, fun e => ⟨g, hfits', ihf e (hfault e)⟩⟩

theorem safe_of_always
    (h : p.Always fun l w => ∀ s total, L.admits l s → L.fits s total → L.fits (w s) total) :
    L.Safe p g :=
  wp_of_always h (fun _ => trivial) fun _ => trivial

theorem safe_bind : L.Safe (p >>= f) g ↔ L.wp p (fun a => L.Safe (f a)) (fun _ _ => True) g :=
  wp_bind

theorem safe_bind_of_always
    (hp : p.Always fun l w => ∀ s total, L.admits l s → L.fits s total → L.fits (w s) total)
    (hf : ∀ a, L.Safe (f a) g) : L.Safe (p >>= f) g :=
  safe_bind.mpr (wp_of_always hp hf fun _ => trivial)

end Ledger

namespace System

variable [AddCommMonoid γ]

/-- The ledger fits the initial stores with nothing held, and every program keeps it. -/
structure Secures (sys : System σ ι ℓ ε) (L : Ledger σ ℓ γ) : Prop where
  init : ∀ s, sys.init s → L.fits s 0
  program : ∀ i, L.Safe (sys.program i) 0

variable {sys : System σ ι ℓ ε} {L : Ledger σ ℓ γ}

/-- Every program of a configuration has a share with which it keeps the ledger, and the shares,
with those that were left behind, fit the store. -/
def Held (L : Ledger σ ℓ γ) (c : Config σ ℓ ε) : Prop :=
  ∃ (shares : List γ) (left : γ), List.Forall₂ L.Safe c.threads shares ∧
    L.fits c.store (shares.sum + left)

/-- The same, beside a share `g` that belongs to no program of the configuration. -/
def HeldBeside (L : Ledger σ ℓ γ) (g : γ) (c : Config σ ℓ ε) : Prop :=
  ∃ (shares : List γ) (left : γ), List.Forall₂ L.Safe c.threads shares ∧
    L.fits c.store (shares.sum + (left + g))

variable {c : Config σ ℓ ε}

theorem heldBeside_zero : HeldBeside L 0 c ↔ Held L c := by
  simp only [HeldBeside, Held, add_zero]

variable {shares : List γ}

private theorem sum_eq_add_eraseIdx {n : ℕ} {g : γ} (h : shares[n]? = some g) :
    shares.sum = g + (shares.eraseIdx n).sum := by
  induction shares generalizing n with
  | nil => simp at h
  | cons g' shares ih =>
    cases n with
    | zero =>
      obtain rfl : g' = g := by simpa using h
      simp
    | succ n =>
      rw [List.sum_cons, ih (by simpa using h), List.eraseIdx_cons_succ, List.sum_cons]
      exact add_left_comm _ _ _

private theorem sum_set {n : ℕ} {g : γ} (g' : γ) (h : shares[n]? = some g) :
    (shares.set n g').sum = g' + (shares.eraseIdx n).sum := by
  have hn : n < shares.length := (List.getElem?_eq_some_iff.mp h).1
  have hset : (shares.set n g')[n]? = some g' := by simp [hn]
  rw [sum_eq_add_eraseIdx hset, List.eraseIdx_set_eq]

variable {threads : List (Prog σ ℓ ε Unit)} {p : Prog σ ℓ ε Unit}

private theorem exists_share {n : ℕ} (h : List.Forall₂ L.Safe threads shares)
    (hn : threads[n]? = some p) : ∃ g, shares[n]? = some g ∧ L.Safe p g := by
  induction h generalizing n with
  | nil => simp at hn
  | cons hp _ ih =>
    cases n with
    | zero =>
      obtain rfl := by simpa using hn
      exact ⟨_, rfl, hp⟩
    | succ n => exact ih (by simpa using hn)

private theorem forall₂_set {n : ℕ} {g : γ} (h : List.Forall₂ L.Safe threads shares)
    (hp : L.Safe p g) : List.Forall₂ L.Safe (threads.set n p) (shares.set n g) := by
  induction h generalizing n with
  | nil => exact .nil
  | cons hq hrest ih =>
    cases n with
    | zero => exact .cons hp hrest
    | succ n => exact .cons hq ih

private theorem forall₂_eraseIdx {n : ℕ} (h : List.Forall₂ L.Safe threads shares) :
    List.Forall₂ L.Safe (threads.eraseIdx n) (shares.eraseIdx n) := by
  induction h generalizing n with
  | nil => exact .nil
  | cons hq hrest ih =>
    cases n with
    | zero => exact hrest
    | succ n => exact .cons hq ih

private theorem HeldBeside.set {n : ℕ} {p' : Prog σ ℓ ε Unit} {s' : σ} {own : γ}
    (hc : HeldBeside L own c) (hn : c.threads[n]? = some p)
    (hstep : ∀ g others, L.Safe p g → L.fits c.store (g + others) → ∃ g', L.fits s' (g' + others) ∧ L.Safe p' g') :
    HeldBeside L own ⟨s', c.threads.set n p'⟩ := by
  obtain ⟨shares, left, hsafe, hfits⟩ := hc
  obtain ⟨g, hg, hp⟩ := exists_share hsafe hn
  rw [sum_eq_add_eraseIdx hg, add_assoc] at hfits
  obtain ⟨g', hfits', hp'⟩ := hstep g _ hp hfits
  refine ⟨shares.set n g', left, forall₂_set hsafe hp', ?_⟩
  rwa [sum_set g' hg, add_assoc]

theorem HeldBeside.update {own own' : γ} {s' : σ} (hc : HeldBeside L own c)
    (hstep : ∀ others, L.fits c.store (own + others) → L.fits s' (own' + others)) :
    HeldBeside L own' ⟨s', c.threads⟩ := by
  obtain ⟨shares, left, hsafe, hfits⟩ := hc
  refine ⟨shares, left, hsafe, ?_⟩
  have hfits' : L.fits s' (own' + (shares.sum + left)) := by
    apply hstep
    rwa [add_comm, add_assoc]
  rwa [add_comm, add_assoc] at hfits'

theorem HeldBeside.fits {own : γ} (hc : HeldBeside L own c) :
    ∃ others, L.fits c.store (own + others) := by
  obtain ⟨shares, left, -, hfits⟩ := hc
  refine ⟨shares.sum + left, ?_⟩
  rwa [add_comm, add_assoc]

theorem Secures.step_beside (h : sys.Secures L) {own : γ} {c' : Config σ ℓ ε}
    (hc : HeldBeside L own c) (hstep : sys.Step L.admits c c') : HeldBeside L own c' := by
  cases hstep with
  | spawn i hen =>
    obtain ⟨shares, left, hsafe, hfits⟩ := hc
    refine ⟨shares ++ [0], left, ?_, ?_⟩
    · exact List.rel_append hsafe (.cons (h.program i) .nil)
    · rwa [List.sum_append, List.sum_singleton, add_zero]
  | proceed hn ha => exact hc.set hn fun g others hp hfits => ((hp c.store others hfits).1 ha).1
  | refuse e hn => exact hc.set hn fun g others hp hfits => (hp c.store others hfits).2 e
  | lose e hn ha => exact hc.set hn fun g others hp hfits => ((hp c.store others hfits).1 ha).2 e
  | crash n =>
    obtain ⟨shares, left, hsafe, hfits⟩ := hc
    cases hn : shares[n]? with
    | none =>
      refine ⟨shares.eraseIdx n, left, forall₂_eraseIdx hsafe, ?_⟩
      rwa [List.eraseIdx_of_length_le (List.getElem?_eq_none_iff.mp hn)]
    | some g =>
      -- The share of the program that died is left behind.
      refine ⟨shares.eraseIdx n, g + left, forall₂_eraseIdx hsafe, ?_⟩
      rw [sum_eq_add_eraseIdx hn] at hfits
      rwa [add_assoc g, add_left_comm, ← add_assoc]

theorem Secures.run_beside (h : sys.Secures L) {own : γ} {c' : Config σ ℓ ε}
    (hc : HeldBeside L own c) (hrun : sys.Run L.admits c c') : HeldBeside L own c' := by
  induction hrun with
  | refl => exact hc
  | tail _ hstep ih => exact h.step_beside ih hstep

theorem Secures.held_of_reachable (h : sys.Secures L) (hc : sys.Reachable L.admits c) :
    Held L c := by
  obtain ⟨s, hs, hrun⟩ := hc
  have hstart : Held L (⟨s, []⟩ : Config σ ℓ ε) :=
    ⟨[], 0, .nil, by simpa using h.init s hs⟩
  exact heldBeside_zero.mp (h.run_beside (heldBeside_zero.mpr hstart) hrun)

theorem Secures.fits_of_reachable (h : sys.Secures L) (hc : sys.Reachable L.admits c) :
    ∃ g, L.fits c.store g := by
  obtain ⟨shares, left, -, hfits⟩ := h.held_of_reachable hc
  exact ⟨_, hfits⟩

end System

end Concurrent
