import AudioBook.Concurrent.Ownership
import AudioBook.Concurrent.Runs
import AudioBook.Concurrent.Triples

/-!
# A Program Alongside a System

One program is followed to its end, while the programs of a system run on and new ones start:
between two of its accesses, and after its last one, the system makes any number of steps.

Main results:

- `System.Alongside.access`: the first access of such an execution, and what is left of it.
- `System.Secures.alongside_of_always`: a share beside the programs survives a program that keeps
  every total.
- `System.alongside_execute`: an execution that nothing interrupts.
-/

namespace Concurrent

variable {σ ι ℓ ε α γ : Type}

/-- A program over the store of a configuration. -/
def Prog.beside (p : Prog σ ℓ ε α) : Prog (Config σ ℓ ε) ℓ ε α :=
  p.onPart id Config.store fun s c => ⟨s, c.threads⟩

theorem Prog.Runs.trans {others : σ → σ → Prop} (htrans : ∀ {a b c}, others a b → others b c →
    others a c) {p : Prog σ ℓ ε α} {s s' s'' : σ} {es : List (Event σ ℓ ε)} {r : Ending ε α}
    (h : Prog.Runs others p s es r s') (hafter : others s' s'') :
    Prog.Runs others p s es r s'' := by
  induction h with
  | ret h => exact .ret (htrans h hafter)
  | raise h => exact .raise (htrans h hafter)
  | crash h => exact .crash (htrans h hafter)
  | done h _ ih => exact .done h (ih hafter)
  | refused e h _ ih => exact .refused e h (ih hafter)
  | lost e h _ ih => exact .lost e h (ih hafter)

namespace System

variable (sys : System σ ι ℓ ε) (admits : ℓ → σ → Prop)

/-- From configuration `c` the program `p` makes the accesses `es` and ends as `r`, and the
system, running beside it, gets to `c'`. An access that takes effect is admitted, as in the steps
of the system. -/
def Alongside (c : Config σ ℓ ε) (p : Prog σ ℓ ε α) (es : List (Event (Config σ ℓ ε) ℓ ε))
    (r : Ending ε α) (c' : Config σ ℓ ε) : Prop :=
  Prog.Runs (sys.Run admits) p.beside c es r c' ∧
    ∀ x ∈ es, x.TookEffect → admits x.label x.store.store

variable {sys admits} {c c' : Config σ ℓ ε} {es : List (Event (Config σ ℓ ε) ℓ ε)}
  {r : Ending ε α}

theorem Alongside.raise {e : ε} (h : sys.Alongside admits c (Prog.raise e : Prog σ ℓ ε α) es r c') :
    es = [] ∧ r = .raised e ∧ sys.Run admits c c' := by
  obtain ⟨hruns, -⟩ := h
  cases hruns with
  | raise hrun => exact ⟨rfl, rfl, hrun⟩

theorem Alongside.access {l : ℓ} {w : σ → σ} {next : σ → Prog σ ℓ ε α} {onFault : ε → Prog σ ℓ ε α}
    (h : sys.Alongside admits c (.access l w next onFault) es r c') (hr : r ≠ .crashed)
    (hdone : ∀ x ∈ es, x.label = l → x.fate = .done) :
    ∃ c₁ es', sys.Run admits c c₁ ∧ admits l c₁.store ∧ es = ⟨l, c₁, .done⟩ :: es' ∧
      sys.Alongside admits ⟨w c₁.store, c₁.threads⟩ (next c₁.store) es' r c' := by
  obtain ⟨hruns, hadmits⟩ := h
  cases hruns with
  | crash hrun => exact absurd rfl hr
  | @done _ _ _ _ _ c₁ _ es' _ hrun hrest =>
    refine ⟨c₁, es', hrun, ?_, rfl, hrest, fun x hx => hadmits x (List.mem_cons_of_mem _ hx)⟩
    exact hadmits _ List.mem_cons_self fun e h => by cases h
  | refused e hrun hrest =>
    have hfate := hdone _ List.mem_cons_self rfl
    cases hfate
  | lost e hrun hrest =>
    have hfate := hdone _ List.mem_cons_self rfl
    cases hfate

theorem Alongside.read_bind {β : Type} {l : ℓ} {f : σ → β} {k : β → Prog σ ℓ ε α}
    (h : sys.Alongside admits c (Prog.read l f >>= k) es r c') (hr : r ≠ .crashed)
    (hdone : ∀ x ∈ es, x.label = l → x.fate = .done) :
    ∃ c₁ es', sys.Run admits c c₁ ∧ es = ⟨l, c₁, .done⟩ :: es' ∧
      sys.Alongside admits c₁ (k (f c₁.store)) es' r c' := by
  change sys.Alongside admits c (.access l id (fun s => k (f s)) Prog.raise) es r c' at h
  obtain ⟨c₁, es', hrun, -, hes, hrest⟩ := h.access hr hdone
  exact ⟨c₁, es', hrun, hes, hrest⟩

theorem Alongside.atomically_bind {β : Type} {l : ℓ} {t : StateT σ (Except ε) β}
    {k : β → Prog σ ℓ ε α} (h : sys.Alongside admits c (Prog.atomically l t >>= k) es r c')
    (hr : r ≠ .crashed) (hdone : ∀ x ∈ es, x.label = l → x.fate = .done)
    (hcommits : ∀ c₁, sys.Run admits c c₁ → Prog.Commits t c₁.store) :
    ∃ c₁ es' b s', sys.Run admits c c₁ ∧ admits l c₁.store ∧ es = ⟨l, c₁, .done⟩ :: es' ∧
      t c₁.store = .ok (b, s') ∧ sys.Alongside admits ⟨s', c₁.threads⟩ (k b) es' r c' := by
  change sys.Alongside admits c
    (.access l (Prog.commit t) (fun s => Prog.outcome t s >>= k) Prog.raise) es r c' at h
  obtain ⟨c₁, es', hrun, ha, hes, hrest⟩ := h.access hr hdone
  obtain ⟨b, s', ht⟩ := hcommits c₁ hrun
  refine ⟨c₁, es', b, s', hrun, ha, hes, ht, ?_⟩
  rw [Prog.commit_of_ok ht, Prog.outcome, ht] at hrest
  exact hrest

section secures

variable [AddCommMonoid γ] {L : Ledger σ ℓ γ} {own : γ}

private theorem Secures.beside_access (h : sys.Secures L) {c₁ : Config σ ℓ ε} {w : σ → σ}
    (hc : HeldBeside L own c) (hrun : sys.Run L.admits c c₁)
    (hw : ∀ total, L.fits c₁.store total → L.fits (w c₁.store) total) :
    HeldBeside L own ⟨w c₁.store, c₁.threads⟩ :=
  (h.run_beside hc hrun).update fun _ hfits => hw _ hfits

theorem Secures.alongside_of_always (h : sys.Secures L) {p : Prog σ ℓ ε α}
    (hp : p.Always fun l w => ∀ s total, L.admits l s → L.fits s total → L.fits (w s) total)
    (hc : HeldBeside L own c) (hrun : sys.Alongside L.admits c p es r c') :
    HeldBeside L own c' := by
  obtain ⟨hruns, hadmits⟩ := hrun
  induction p generalizing c es with
  | ret a =>
    cases hruns with
    | ret hrun => exact h.run_beside hc hrun
  | raise e =>
    cases hruns with
    | raise hrun => exact h.run_beside hc hrun
  | access l w next onFault ihn ihf =>
    obtain ⟨hw, hnext, hfault⟩ := hp
    have hrest : ∀ x ∈ es.tail, x.TookEffect → L.admits x.label x.store.store :=
      fun x hx => hadmits x (List.mem_of_mem_tail hx)
    cases hruns with
    | crash hrun => exact h.run_beside hc hrun
    | done hrun hruns =>
      have ha := hadmits _ List.mem_cons_self fun e h => by cases h
      exact ihn _ (hnext _) (h.beside_access hc hrun fun total => hw _ total ha) hruns hrest
    | refused e hrun hruns => exact ihf e (hfault e) (h.run_beside hc hrun) hruns hrest
    | lost e hrun hruns =>
      have ha := hadmits _ List.mem_cons_self fun e h => by cases h
      exact ihf e (hfault e) (h.beside_access hc hrun fun total => hw _ total ha) hruns hrest

end secures

theorem alongside_execute {p : Prog σ ℓ ε α} {fates : List (Fate ε)}
    (hadmits : ∀ x ∈ (p.beside.execute c fates).1, x.TookEffect → admits x.label x.store.store)
    (hafter : sys.Run admits (p.beside.execute c fates).2.2 c') :
    sys.Alongside admits c p (p.beside.execute c fates).1 (p.beside.execute c fates).2.1 c' :=
  ⟨(Prog.runs_execute (fun _ => .refl) p.beside c fates).trans Relation.ReflTransGen.trans hafter,
    hadmits⟩

end System

end Concurrent
