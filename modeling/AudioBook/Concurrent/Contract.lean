import AudioBook.Concurrent.Interleaving

/-!
# Contracts of Interleaved Programs

Rely–guarantee reasoning with one preorder. A contract names what every step may do to the
store (`evolves`) and which accesses are considered at all (`admits`). A program keeps the
contract when each of its accesses evolves the store, given only that everyone else does so
between its accesses. If every program keeps the contract, every run evolves the store.

Main results:

- `Contract.wp_bind` and `Contract.wp_tryCatch`: the rules of sequencing and handling.
- `System.Respects.evolves_of_run`: every run of a system that respects a contract evolves
  the store.
-/

namespace Concurrent

variable {σ ι ℓ ε α β : Type}

/-- What every step of every program may do to the store. -/
structure Contract (σ ℓ : Type) where
  /-- The accesses considered, by their label and the store they meet. -/
  admits : ℓ → σ → Prop
  /-- The change of the store that steps may make. -/
  evolves : σ → σ → Prop
  refl : ∀ s, evolves s s
  trans : ∀ {s₁ s₂ s₃}, evolves s₁ s₂ → evolves s₂ s₃ → evolves s₁ s₃

namespace Contract

/-- Steps keep an invariant and, while it holds, change the store only along a preorder. -/
def ofInvariant (admits : ℓ → σ → Prop) (inv : σ → Prop) (mono : σ → σ → Prop)
    [IsPreorder σ mono] : Contract σ ℓ where
  admits := admits
  evolves s s' := inv s → inv s' ∧ mono s s'
  refl s h := ⟨h, refl_of mono s⟩
  trans h₁ h₂ h :=
    have h' := h₁ h
    have h'' := h₂ h'.1
    ⟨h''.1, trans_of mono h'.2 h''.2⟩

def keeps (admits : ℓ → σ → Prop) (inv : σ → Prop) : Contract σ ℓ where
  admits := admits
  evolves s s' := inv s → inv s'
  refl _ h := h
  trans h₁ h₂ h := h₂ (h₁ h)

variable (K : Contract σ ℓ)

/-- The effect of an access, wherever it is admitted, is an allowed change. -/
def Allows (l : ℓ) (w : σ → σ) : Prop :=
  ∀ s, K.admits l s → K.evolves s (w s)

theorem allows_id (l : ℓ) : K.Allows l id := fun s _ => K.refl s

theorem allows_commit {l : ℓ} {t : StateT σ (Except ε) α}
    (h : ∀ s a s', K.admits l s → t s = .ok (a, s') → K.evolves s s') :
    K.Allows l (Prog.commit t) := by
  intro s ha
  cases ht : t s with
  | ok p =>
    rw [Prog.commit_of_ok ht]
    exact h s p.1 p.2 ha ht
  | error e =>
    rw [Prog.commit_of_error ht]
    exact K.refl s

/-- The weakest precondition: from a store last seen as `s`, with everyone else evolving the
store in between, the program makes only allowed changes, and ends in `Q` or raises in `E`. -/
def wp : Prog σ ℓ ε α → (α → σ → Prop) → (ε → σ → Prop) → σ → Prop
  | .ret a, Q, _, s => Q a s
  | .raise e, _, E, s => E e s
  | .access l w next onFault, Q, E, s =>
      ∀ s', K.evolves s s' →
        (K.admits l s' →
          K.evolves s' (w s') ∧ wp (next s') Q E (w s') ∧ ∀ e, wp (onFault e) Q E (w s')) ∧
        ∀ e, wp (onFault e) Q E s'

/-- The program keeps the contract, however it ends. -/
def Safe (p : Prog σ ℓ ε α) (s : σ) : Prop :=
  K.wp p (fun _ _ => True) (fun _ _ => True) s

variable {K} {Q Q' : α → σ → Prop} {E E' : ε → σ → Prop} {s : σ}

variable {p : Prog σ ℓ ε α} {f : α → Prog σ ℓ ε β}

theorem wp_bind {Q : β → σ → Prop} :
    K.wp (p >>= f) Q E s ↔ K.wp p (fun a => K.wp (f a) Q E) E s := by
  induction p generalizing s with
  | ret a => rfl
  | raise e => rfl
  | access l w next onFault ihn ihf =>
    change K.wp (.access l w (fun s => next s >>= f) (fun e => onFault e >>= f)) Q E s ↔ _
    simp only [wp, ihn, ihf]

theorem wp_tryCatch {handler : ε → Prog σ ℓ ε α} :
    K.wp (tryCatchThe ε p handler) Q E s ↔ K.wp p Q (fun e => K.wp (handler e) Q E) s := by
  induction p generalizing s with
  | ret a => rfl
  | raise e => rfl
  | access l w next onFault ihn ihf =>
    change K.wp (.access l w (fun s => tryCatchThe ε (next s) handler)
      (fun e => tryCatchThe ε (onFault e) handler)) Q E s ↔ _
    simp only [wp, ihn, ihf]

theorem wp_mono (hQ : ∀ a s, Q a s → Q' a s) (hE : ∀ e s, E e s → E' e s) (h : K.wp p Q E s) :
    K.wp p Q' E' s := by
  induction p generalizing s with
  | ret a => exact hQ a s h
  | raise e => exact hE e s h
  | access l w next onFault ihn ihf =>
    intro s' hs'
    obtain ⟨hdone, hrefused⟩ := h s' hs'
    refine ⟨fun ha => ?_, fun e => ihf e (hrefused e)⟩
    obtain ⟨hw, hnext, hlost⟩ := hdone ha
    exact ⟨hw, ihn s' hnext, fun e => ihf e (hlost e)⟩

/-- A fact that no allowed change makes false. -/
def Stable (K : Contract σ ℓ) (F : σ → Prop) : Prop :=
  ∀ s s', K.evolves s s' → F s → F s'

variable {F : σ → Prop}

theorem wp_frame (hF : K.Stable F) (hs : F s) (h : K.wp p Q E s) :
    K.wp p (fun a s => Q a s ∧ F s) (fun e s => E e s ∧ F s) s := by
  induction p generalizing s with
  | ret a => exact ⟨h, hs⟩
  | raise e => exact ⟨h, hs⟩
  | access l w next onFault ihn ihf =>
    intro s' hs'
    have hF' : F s' := hF s s' hs' hs
    obtain ⟨hdone, hrefused⟩ := h s' hs'
    refine ⟨fun ha => ?_, fun e => ihf e hF' (hrefused e)⟩
    obtain ⟨hw, hnext, hlost⟩ := hdone ha
    have hFw : F (w s') := hF s' (w s') hw hF'
    exact ⟨hw, ihn s' hFw hnext, fun e => ihf e hFw (hlost e)⟩

theorem wp_bind_of_stable {Q : β → σ → Prop} (hF : K.Stable F) (hs : F s) (hp : K.Safe p s)
    (hf : ∀ a s', F s' → K.wp (f a) Q E s') (hE : ∀ e s', F s' → E e s') : K.wp (p >>= f) Q E s :=
  wp_bind.mpr (wp_mono (fun a s' h => hf a s' h.2) (fun e s' h => hE e s' h.2)
    (wp_frame hF hs hp))

theorem wp_read {l : ℓ} {f : σ → α} (hE : ∀ e s', K.evolves s s' → E e s')
    (h : ∀ s', K.evolves s s' → K.admits l s' → Q (f s') s') :
    K.wp (Prog.read l f : Prog σ ℓ ε α) Q E s :=
  fun s' hs' => ⟨fun ha => ⟨K.refl s', h s' hs' ha, fun e => hE e s' hs'⟩, fun e => hE e s' hs'⟩

theorem wp_atomically {l : ℓ} {t : StateT σ (Except ε) α}
    (hE : ∀ e s', K.evolves s s' → E e s')
    (h : ∀ s' a s'', K.evolves s s' → K.admits l s' → t s' = .ok (a, s'') →
      K.evolves s' s'' ∧ Q a s'') :
    K.wp (Prog.atomically l t : Prog σ ℓ ε α) Q E s := by
  intro s' hs'
  refine ⟨fun ha => ?_, fun e => hE e s' hs'⟩
  rw [Prog.outcome]
  cases ht : t s' with
  | ok p =>
    obtain ⟨hw, hq⟩ := h s' p.1 p.2 hs' ha ht
    rw [Prog.commit_of_ok ht]
    exact ⟨hw, hq, fun e => hE e _ (K.trans hs' hw)⟩
  | error e =>
    rw [Prog.commit_of_error ht]
    exact ⟨K.refl s', hE e s' hs', fun e => hE e s' hs'⟩

theorem safe_of_always (h : p.Always K.Allows) : K.Safe p s := by
  induction p generalizing s with
  | ret a => trivial
  | raise e => trivial
  | access l w next onFault ihn ihf =>
    intro s' _
    obtain ⟨hw, hnext, hfault⟩ := h
    exact ⟨fun ha => ⟨hw s' ha, ihn s' (hnext s'), fun e => ihf e (hfault e)⟩,
      fun e => ihf e (hfault e)⟩

@[simp]
theorem safe_pure {a : α} : K.Safe (pure a : Prog σ ℓ ε α) s := trivial

@[simp]
theorem safe_throw {e : ε} : K.Safe (throw e : Prog σ ℓ ε α) s := trivial

theorem safe_bind_of_wp (hp : K.wp p (fun a s' => K.Safe (f a) s') (fun _ _ => True) s) :
    K.Safe (p >>= f) s :=
  wp_bind.mpr hp

theorem safe_bind (hF : K.Stable F) (hs : F s) (hp : K.Safe p s)
    (hf : ∀ a s', F s' → K.Safe (f a) s') : K.Safe (p >>= f) s :=
  wp_bind_of_stable hF hs hp hf fun _ _ _ => trivial

theorem safe_tryCatch {handler : ε → Prog σ ℓ ε α} (hF : K.Stable F) (hs : F s) (hp : K.Safe p s)
    (hh : ∀ e s', F s' → K.Safe (handler e) s') : K.Safe (tryCatchThe ε p handler) s :=
  wp_tryCatch.mpr (wp_mono (fun _ _ _ => trivial) (fun e s' h => hh e s' h.2) (wp_frame hF hs hp))

theorem stable_invariant {admits : ℓ → σ → Prop} {inv : σ → Prop} {mono : σ → σ → Prop}
    [IsPreorder σ mono] : (ofInvariant admits inv mono).Stable inv :=
  fun _ _ h hs => (h hs).1

theorem stable_of_mono {admits : ℓ → σ → Prop} {inv : σ → Prop} {mono : σ → σ → Prop}
    [IsPreorder σ mono] (hF : ∀ s s', inv s → mono s s' → F s → F s') :
    (ofInvariant admits inv mono).Stable fun s => inv s ∧ F s :=
  fun s s' h hs => ⟨(h hs.1).1, hF s s' hs.1 (h hs.1).2 hs.2⟩

theorem Stable.and {G : σ → Prop} (hF : K.Stable F) (hG : K.Stable G) :
    K.Stable fun s => F s ∧ G s :=
  fun s s' h hs => ⟨hF s s' h hs.1, hG s s' h hs.2⟩

end Contract

namespace System

/-- Every program that can start keeps the contract. -/
def Respects (sys : System σ ι ℓ ε) (K : Contract σ ℓ) : Prop :=
  ∀ s₀ s i, sys.init s₀ → K.evolves s₀ s → sys.enabled i s →
    K.Safe (sys.program i) s

variable {sys : System σ ι ℓ ε} {K : Contract σ ℓ}

/-- What a configuration of a system that respects a contract satisfies: the store evolved
from an initial one, and every program keeps the contract from some store it saw. -/
def Kept (sys : System σ ι ℓ ε) (K : Contract σ ℓ) (c : Config σ ℓ ε) : Prop :=
  (∃ s₀, sys.init s₀ ∧ K.evolves s₀ c.store) ∧
    ∀ p ∈ c.threads, ∃ s, K.evolves s c.store ∧ K.Safe p s

variable {c : Config σ ℓ ε}

private theorem Kept.set (hc : sys.Kept K c) {s' : σ} {n : ℕ} {p : Prog σ ℓ ε Unit}
    (hs : K.evolves c.store s') (hp : K.Safe p s') : sys.Kept K ⟨s', c.threads.set n p⟩ := by
  obtain ⟨⟨s₀, hinit, hev⟩, hthreads⟩ := hc
  refine ⟨⟨s₀, hinit, K.trans hev hs⟩, fun q hq => ?_⟩
  rcases List.mem_or_eq_of_mem_set hq with hq | rfl
  · obtain ⟨s, hsc, hq⟩ := hthreads q hq
    exact ⟨s, K.trans hsc hs, hq⟩
  · exact ⟨s', K.refl s', hp⟩

variable {c' : Config σ ℓ ε}

theorem Respects.step (h : sys.Respects K) (hc : sys.Kept K c) (hstep : sys.Step K.admits c c') :
    sys.Kept K c' ∧ K.evolves c.store c'.store := by
  cases hstep with
  | spawn i hen =>
    obtain ⟨⟨s₀, hinit, hev⟩, hthreads⟩ := hc
    refine ⟨⟨⟨s₀, hinit, hev⟩, fun p hp => ?_⟩, K.refl _⟩
    rcases List.mem_append.mp hp with hp | hp
    · exact hthreads p hp
    · obtain rfl := List.mem_singleton.mp hp
      exact ⟨c.store, K.refl _, h s₀ c.store i hinit hev hen⟩
  | proceed hn ha =>
    obtain ⟨s, hs, hp⟩ := hc.2 _ (List.mem_of_getElem? hn)
    obtain ⟨hw, hnext, -⟩ := (hp c.store hs).1 ha
    exact ⟨hc.set hw hnext, hw⟩
  | refuse e hn =>
    obtain ⟨s, hs, hp⟩ := hc.2 _ (List.mem_of_getElem? hn)
    exact ⟨hc.set (K.refl _) ((hp c.store hs).2 e), K.refl _⟩
  | lose e hn ha =>
    obtain ⟨s, hs, hp⟩ := hc.2 _ (List.mem_of_getElem? hn)
    obtain ⟨hw, -, hlost⟩ := (hp c.store hs).1 ha
    exact ⟨hc.set hw (hlost e), hw⟩
  | crash n =>
    refine ⟨⟨hc.1, fun p hp => hc.2 p ?_⟩, K.refl _⟩
    exact List.mem_of_mem_eraseIdx hp

theorem Respects.run (h : sys.Respects K) (hc : sys.Kept K c) (hrun : sys.Run K.admits c c') :
    sys.Kept K c' ∧ K.evolves c.store c'.store := by
  induction hrun with
  | refl => exact ⟨hc, K.refl _⟩
  | tail _ hstep ih =>
    obtain ⟨hkept, hev⟩ := ih
    obtain ⟨hkept', hev'⟩ := h.step hkept hstep
    exact ⟨hkept', K.trans hev hev'⟩

theorem Respects.kept (h : sys.Respects K) (hc : sys.Reachable K.admits c) : sys.Kept K c := by
  obtain ⟨s₀, hinit, hrun⟩ := hc
  exact (h.run ⟨⟨s₀, hinit, K.refl _⟩, by simp⟩ hrun).1

theorem Respects.evolves_of_run (h : sys.Respects K) (hc : sys.Reachable K.admits c)
    (hrun : sys.Run K.admits c c') : K.evolves c.store c'.store :=
  (h.run (h.kept hc) hrun).2

theorem Respects.evolves_of_reachable (h : sys.Respects K) (hc : sys.Reachable K.admits c) :
    ∃ s₀, sys.init s₀ ∧ K.evolves s₀ c.store :=
  (h.kept hc).1

theorem respects_of_always (h : ∀ i, (sys.program i).Always K.Allows) : sys.Respects K :=
  fun _ _ i _ _ _ => Contract.safe_of_always (h i)

end System

end Concurrent
