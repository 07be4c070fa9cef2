import AudioBook.Concurrent.Ownership
import Mathlib.Algebra.Group.Prod
import Mathlib.Algebra.Order.Group.Multiset

/-!
# Facts as Shares

A share says what a program may do. What a program has read it may keep as well, as long as no
change that the others make can turn it false. Here a ledger is extended by such facts: a share
of the extended ledger is a share of the ledger and some facts, and it fits a store in which all
of them hold.

Main results:

- `Ledger.wp_withFacts_read`, `Ledger.wp_withFacts_atomically`: a program learns facts.
- `System.HeldBeside.learn`, `System.HeldBeside.change`: so does the owner of a share beside the
  programs.
-/

namespace Concurrent

variable {σ ι ℓ ε α γ : Type}

/-- A fact that no change along `R` turns false. -/
structure Lasting (R : σ → σ → Prop) where
  holds : σ → Prop
  stable : ∀ s s', R s s' → holds s → holds s'

namespace Ledger

/-- A ledger whose shares also hold facts. -/
def withFacts (L : Ledger σ ℓ γ) (R : σ → σ → Prop) : Ledger σ ℓ (γ × Multiset (Lasting R)) where
  admits := L.admits
  fits s share := L.fits s share.1 ∧ ∀ F ∈ share.2, F.holds s

variable [AddCommMonoid γ] {L : Ledger σ ℓ γ} {R : σ → σ → Prop} {own own' : γ}
  {facts learned : Multiset (Lasting R)}
  {Q : α → γ × Multiset (Lasting R) → Prop} {E : ε → γ × Multiset (Lasting R) → Prop}

theorem withFacts_fits_add {s : σ} {others : γ × Multiset (Lasting R)} :
    (L.withFacts R).fits s ((own, facts) + others) ↔
      L.fits s (own + others.1) ∧ (∀ F ∈ facts, F.holds s) ∧ ∀ F ∈ others.2, F.holds s := by
  show L.fits s (own + others.1) ∧ (∀ F ∈ facts + others.2, F.holds s) ↔ _
  simp only [Multiset.mem_add, or_imp, forall_and]

theorem holds_of_change {s s' : σ} (h : R s s') (hfacts : ∀ F ∈ facts, F.holds s) :
    ∀ F ∈ facts, F.holds s' :=
  fun F hF => F.stable s s' h (hfacts F hF)

theorem withFacts_fits_change {s s' : σ} {others : γ × Multiset (Lasting R)} (hR : R s s')
    (h : (L.withFacts R).fits s ((own, facts) + others)) (hown : L.fits s' (own' + others.1))
    (hlearned : ∀ F ∈ learned, F.holds s') :
    (L.withFacts R).fits s' ((own', facts + learned) + others) := by
  obtain ⟨-, hfacts, hothers⟩ := withFacts_fits_add.mp h
  refine withFacts_fits_add.mpr ⟨hown, fun F hF => ?_, holds_of_change hR hothers⟩
  rcases Multiset.mem_add.mp hF with hF | hF
  · exact holds_of_change hR hfacts F hF
  · exact hlearned F hF

omit [AddCommMonoid γ] in
theorem always_withFacts {p : Prog σ ℓ ε α}
    (h : p.Always fun l w => ∀ s total, L.admits l s → L.fits s total →
      L.fits (w s) total ∧ R s (w s)) :
    p.Always fun l w => ∀ s total, (L.withFacts R).admits l s → (L.withFacts R).fits s total →
      (L.withFacts R).fits (w s) total := by
  apply Prog.Always.mono _ h
  rintro l w hw s ⟨total, known⟩ ha ⟨htotal, hknown⟩
  obtain ⟨hfits, hR⟩ := hw s total ha htotal
  exact ⟨hfits, holds_of_change hR hknown⟩

theorem wp_withFacts_read {l : ℓ} {f : σ → α} (hrefl : ∀ s, R s s)
    (h : ∀ s others, L.fits s (own + others) → (∀ F ∈ facts, F.holds s) →
      ∃ learned : Multiset (Lasting R), (∀ F ∈ learned, F.holds s) ∧ Q (f s) (own, facts + learned))
    (hE : ∀ e, E e (own, facts)) :
    (L.withFacts R).wp (Prog.read l f : Prog σ ℓ ε α) Q E (own, facts) := by
  apply wp_read
  · intro s others hfits _
    obtain ⟨hown, hfacts, -⟩ := withFacts_fits_add.mp hfits
    obtain ⟨learned, hlearned, hQ⟩ := h s others.1 hown hfacts
    exact ⟨_, withFacts_fits_change (hrefl s) hfits hown hlearned, hQ⟩
  · exact hE

theorem wp_withFacts_atomically {l : ℓ} {t : StateT σ (Except ε) α}
    {G : α → γ × Multiset (Lasting R) → Prop}
    (h : ∀ s others a s', L.fits s (own + others) → (∀ F ∈ facts, F.holds s) → L.admits l s →
      t s = .ok (a, s') → R s s' ∧ ∃ (own' : γ) (learned : Multiset (Lasting R)),
        L.fits s' (own' + others) ∧ (∀ F ∈ learned, F.holds s') ∧ G a (own', facts + learned))
    (hQ : ∀ a g', G a g' → Q a g') (hlost : ∀ e a g', G a g' → E e g')
    (hE : ∀ e, E e (own, facts)) :
    (L.withFacts R).wp (Prog.atomically l t : Prog σ ℓ ε α) Q E (own, facts) := by
  apply wp_atomically (G := G)
  · intro s others a s' hfits ha ht
    obtain ⟨hown, hfacts, -⟩ := withFacts_fits_add.mp hfits
    obtain ⟨hR, own', learned, hown', hlearned, hG⟩ := h s others.1 a s' hown hfacts ha ht
    exact ⟨_, withFacts_fits_change hR hfits hown' hlearned, hG⟩
  · exact hQ
  · exact hlost
  · exact hE

end Ledger

namespace System

variable [AddCommMonoid γ] {L : Ledger σ ℓ γ} {R : σ → σ → Prop} {own : γ}
  {facts learned : Multiset (Lasting R)} {c : Config σ ℓ ε}

theorem HeldBeside.change {s' : σ} (hc : HeldBeside (L.withFacts R) (own, facts) c)
    (hR : R c.store s') (hown : ∀ total, L.fits c.store total → L.fits s' total)
    (hlearned : ∀ F ∈ learned, F.holds s') :
    HeldBeside (L.withFacts R) (own, facts + learned) ⟨s', c.threads⟩ := by
  apply hc.update
  intro others hfits
  exact Ledger.withFacts_fits_change hR hfits (hown _ (Ledger.withFacts_fits_add.mp hfits).1)
    hlearned

theorem HeldBeside.learn (hrefl : ∀ s, R s s) (hc : HeldBeside (L.withFacts R) (own, facts) c)
    (hlearned : ∀ F ∈ learned, F.holds c.store) :
    HeldBeside (L.withFacts R) (own, facts + learned) c :=
  hc.change (hrefl _) (fun _ h => h) hlearned

theorem HeldBeside.holds (hc : HeldBeside (L.withFacts R) (own, facts) c) :
    (∃ total, L.fits c.store total) ∧ ∀ F ∈ facts, F.holds c.store := by
  obtain ⟨others, hfits⟩ := hc.fits
  obtain ⟨hown, hfacts, -⟩ := Ledger.withFacts_fits_add.mp hfits
  exact ⟨⟨_, hown⟩, hfacts⟩

end System

end Concurrent
