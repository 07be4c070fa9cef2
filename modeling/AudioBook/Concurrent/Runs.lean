import AudioBook.Concurrent.Trace
import Mathlib.Order.Defs.Unbundled

/-!
# Composed Executions in a Changing Store

The executions of `Prog.Runs`, taken apart along the structure of the program, with the stores
between its parts.

Main results:

- `Prog.runs_bind` and `Prog.runs_tryCatch`: an execution of a composed program is composed.
- `Prog.Runs.related`: what all accesses and all others respect, an execution respects.
-/

namespace Concurrent

variable {σ ℓ ε α β : Type}

/-- The store after an access with effect `w`. -/
def Event.after (w : σ → σ) (x : Event σ ℓ ε) : σ :=
  match x.fate with
  | .done => w x.store
  | .refused _ => x.store
  | .lost _ => w x.store

theorem Event.after_of_effect {t : StateT σ (Except ε) α} {x : Event σ ℓ ε} {a : α} {s' : σ}
    (h : x.TookEffect) (ht : t x.store = .ok (a, s')) : x.after (Prog.commit t) = s' := by
  rw [after]
  split
  · exact Prog.commit_of_ok ht
  · next e hfate => exact absurd hfate (h e)
  · exact Prog.commit_of_ok ht

theorem Event.after_of_no_effect {t : StateT σ (Except ε) α} {x : Event σ ℓ ε}
    (h : ¬ (x.TookEffect ∧ Prog.Commits t x.store)) : x.after (Prog.commit t) = x.store := by
  by_cases hcommits : Prog.Commits t x.store
  · have hnot : ¬ x.TookEffect := fun htook => h ⟨htook, hcommits⟩
    simp only [TookEffect, not_forall, not_not] at hnot
    obtain ⟨e, hfate⟩ := hnot
    simp [after, hfate]
  · have hcommit := Prog.commit_of_not_commits hcommits
    rw [after]
    split <;> simp [hcommit]

/-- The store after some accesses, starting from a store, where every label has its effect. -/
def lastStore (effect : ℓ → σ → σ) : σ → List (Event σ ℓ ε) → σ
  | s, [] => s
  | _, x :: es => lastStore effect (x.after (effect x.label)) es

@[simp]
theorem lastStore_concat (effect : ℓ → σ → σ) (s : σ) (es : List (Event σ ℓ ε))
    (x : Event σ ℓ ε) : lastStore effect s (es ++ [x]) = x.after (effect x.label) := by
  induction es generalizing s with
  | nil => rfl
  | cons y es ih => exact ih _

theorem related_lastStore_append {R : σ → σ → Prop} [IsPreorder σ R] {effect : ℓ → σ → σ}
    {s s₁ s' : σ} {es₁ es₂ : List (Event σ ℓ ε)} (h₁ : R (lastStore effect s es₁) s₁)
    (h₂ : R (lastStore effect s₁ es₂) s') : R (lastStore effect s (es₁ ++ es₂)) s' := by
  rcases List.eq_nil_or_concat es₂ with rfl | ⟨es, x, rfl⟩
  · rw [List.append_nil]
    exact trans_of R h₁ h₂
  · rw [List.concat_eq_append] at h₂ ⊢
    rw [lastStore_concat] at h₂
    rwa [← List.append_assoc, lastStore_concat]

namespace Prog

variable {others : σ → σ → Prop} {es : List (Event σ ℓ ε)} {p : Prog σ ℓ ε α}

theorem runs_bind (hrefl : ∀ s, others s s) {f : α → Prog σ ℓ ε β} {s s' : σ} {r : Ending ε β}
    (h : Runs others (p >>= f) s es r s') :
    (∃ a es₁ es₂ s₁, es = es₁ ++ es₂ ∧ Runs others p s es₁ (.returned a) s₁ ∧
        Runs others (f a) s₁ es₂ r s') ∨
      (∃ e, r = .raised e ∧ Runs others p s es (.raised e) s') ∨
        r = .crashed ∧ Runs others p s es .crashed s' := by
  induction p generalizing s es with
  | ret a => exact .inl ⟨a, [], es, s, rfl, .ret (hrefl s), h⟩
  | raise e =>
    change Runs others (raise e) s es r s' at h
    cases h with
    | raise h => exact .inr (.inl ⟨e, rfl, .raise h⟩)
  | access l w next onFault ihn ihf =>
    change Runs others (.access l w (fun s => next s >>= f) fun e => onFault e >>= f) s es r s' at h
    cases h with
    | crash h => exact .inr (.inr ⟨rfl, .crash h⟩)
    | done h hrest =>
      rcases ihn _ hrest with ⟨a, es₁, es₂, s₂, rfl, h₁, h₂⟩ | ⟨e, rfl, h₁⟩ | ⟨rfl, h₁⟩
      · exact .inl ⟨a, _, es₂, s₂, rfl, .done h h₁, h₂⟩
      · exact .inr (.inl ⟨e, rfl, .done h h₁⟩)
      · exact .inr (.inr ⟨rfl, .done h h₁⟩)
    | refused e h hrest =>
      rcases ihf e hrest with ⟨a, es₁, es₂, s₂, rfl, h₁, h₂⟩ | ⟨e', rfl, h₁⟩ | ⟨rfl, h₁⟩
      · exact .inl ⟨a, _, es₂, s₂, rfl, .refused e h h₁, h₂⟩
      · exact .inr (.inl ⟨e', rfl, .refused e h h₁⟩)
      · exact .inr (.inr ⟨rfl, .refused e h h₁⟩)
    | lost e h hrest =>
      rcases ihf e hrest with ⟨a, es₁, es₂, s₂, rfl, h₁, h₂⟩ | ⟨e', rfl, h₁⟩ | ⟨rfl, h₁⟩
      · exact .inl ⟨a, _, es₂, s₂, rfl, .lost e h h₁, h₂⟩
      · exact .inr (.inl ⟨e', rfl, .lost e h h₁⟩)
      · exact .inr (.inr ⟨rfl, .lost e h h₁⟩)

variable {r : Ending ε α}

theorem runs_tryCatch (hrefl : ∀ s, others s s) {handler : ε → Prog σ ℓ ε α} {s s' : σ}
    (h : Runs others (tryCatchThe ε p handler) s es r s') :
    (∃ e es₁ es₂ s₁, es = es₁ ++ es₂ ∧ Runs others p s es₁ (.raised e) s₁ ∧
        Runs others (handler e) s₁ es₂ r s') ∨
      (∃ a, r = .returned a ∧ Runs others p s es (.returned a) s') ∨
        r = .crashed ∧ Runs others p s es .crashed s' := by
  induction p generalizing s es with
  | ret a =>
    change Runs others (ret a) s es r s' at h
    cases h with
    | ret h => exact .inr (.inl ⟨a, rfl, .ret h⟩)
  | raise e => exact .inl ⟨e, [], es, s, rfl, .raise (hrefl s), h⟩
  | access l w next onFault ihn ihf =>
    change Runs others (.access l w (fun s => tryCatchThe ε (next s) handler)
      fun e => tryCatchThe ε (onFault e) handler) s es r s' at h
    cases h with
    | crash h => exact .inr (.inr ⟨rfl, .crash h⟩)
    | done h hrest =>
      rcases ihn _ hrest with ⟨e, es₁, es₂, s₂, rfl, h₁, h₂⟩ | ⟨a, rfl, h₁⟩ | ⟨rfl, h₁⟩
      · exact .inl ⟨e, _, es₂, s₂, rfl, .done h h₁, h₂⟩
      · exact .inr (.inl ⟨a, rfl, .done h h₁⟩)
      · exact .inr (.inr ⟨rfl, .done h h₁⟩)
    | refused e h hrest =>
      rcases ihf e hrest with ⟨e', es₁, es₂, s₂, rfl, h₁, h₂⟩ | ⟨a, rfl, h₁⟩ | ⟨rfl, h₁⟩
      · exact .inl ⟨e', _, es₂, s₂, rfl, .refused e h h₁, h₂⟩
      · exact .inr (.inl ⟨a, rfl, .refused e h h₁⟩)
      · exact .inr (.inr ⟨rfl, .refused e h h₁⟩)
    | lost e h hrest =>
      rcases ihf e hrest with ⟨e', es₁, es₂, s₂, rfl, h₁, h₂⟩ | ⟨a, rfl, h₁⟩ | ⟨rfl, h₁⟩
      · exact .inl ⟨e', _, es₂, s₂, rfl, .lost e h h₁, h₂⟩
      · exact .inr (.inl ⟨a, rfl, .lost e h h₁⟩)
      · exact .inr (.inr ⟨rfl, .lost e h h₁⟩)

theorem runs_read_bind (hrefl : ∀ s, others s s) {l : ℓ} {g : σ → α} {f : α → Prog σ ℓ ε β}
    {s s' : σ} {r : Ending ε β} (h : Runs others (read l g >>= f) s es r s') :
    ((∀ x ∈ es, x.label = l) ∧ ∃ s₁, others s s₁ ∧ others s₁ s') ∨
      ∃ s₁ es', others s s₁ ∧ es = ⟨l, s₁, .done⟩ :: es' ∧ Runs others (f (g s₁)) s₁ es' r s' := by
  change Runs others (.access l id (fun s => f (g s)) fun e => (raise e : Prog σ ℓ ε β)) s es r s'
    at h
  cases h with
  | crash h => exact .inl ⟨by simp, _, h, hrefl _⟩
  | done h hrest => exact .inr ⟨_, _, h, rfl, hrest⟩
  | refused e h hrest =>
    cases hrest with
    | raise h' => exact .inl ⟨by simp, _, h, h'⟩
  | lost e h hrest =>
    cases hrest with
    | raise h' => exact .inl ⟨by simp, _, h, h'⟩

theorem runs_atomically {l : ℓ} {t : StateT σ (Except ε) α} {s s' : σ}
    (h : Runs others (atomically l t) s es r s') :
    (es = [] ∧ others s s') ∨ ∃ x : Event σ ℓ ε, es = [x] ∧ x.label = l ∧ others s x.store ∧
      others (x.after (commit t)) s' := by
  cases h with
  | crash h => exact .inl ⟨rfl, h⟩
  | @done _ _ _ _ _ s₁ _ _ _ h hrest =>
    rw [outcome] at hrest
    right
    split at hrest
    · cases hrest with
      | ret h' => exact ⟨⟨l, s₁, .done⟩, rfl, rfl, h, h'⟩
    · cases hrest with
      | raise h' => exact ⟨⟨l, s₁, .done⟩, rfl, rfl, h, h'⟩
  | @refused _ _ _ _ _ s₁ _ _ _ e h hrest =>
    cases hrest with
    | raise h' => exact .inr ⟨⟨l, s₁, .refused e⟩, rfl, rfl, h, h'⟩
  | @lost _ _ _ _ _ s₁ _ _ _ e h hrest =>
    cases hrest with
    | raise h' => exact .inr ⟨⟨l, s₁, .lost e⟩, rfl, rfl, h, h'⟩

theorem runs_read_returned {l : ℓ} {f : σ → α} {s s' : σ} {a : α}
    (h : Runs others (read l f : Prog σ ℓ ε α) s es (.returned a) s') :
    ∃ s₁, es = [⟨l, s₁, .done⟩] ∧ others s s₁ ∧ others s₁ s' ∧ a = f s₁ := by
  cases h with
  | @done _ _ _ _ _ s₁ _ _ _ h hrest =>
    cases hrest with
    | ret h' => exact ⟨s₁, rfl, h, h', rfl⟩
  | refused e h hrest => cases hrest
  | lost e h hrest => cases hrest

theorem runs_atomically_returned {l : ℓ} {t : StateT σ (Except ε) α} {s s' : σ} {a : α}
    (h : Runs others (atomically l t) s es (.returned a) s') :
    ∃ s₁ s₂, es = [⟨l, s₁, .done⟩] ∧ others s s₁ ∧ t s₁ = .ok (a, s₂) ∧ others s₂ s' := by
  cases h with
  | @done _ _ _ _ _ s₁ _ _ _ h hrest =>
    rw [outcome] at hrest
    cases ht : t s₁ with
    | ok p =>
      simp only [ht] at hrest
      cases hrest with
      | ret h' => exact ⟨s₁, p.2, rfl, h, ht, by rwa [commit_of_ok ht] at h'⟩
    | error e =>
      simp only [ht] at hrest
      cases hrest
  | refused e h hrest => cases hrest
  | lost e h hrest => cases hrest

theorem Runs.related {R : σ → σ → Prop} [IsPreorder σ R] (hothers : ∀ s s', others s s' → R s s')
    (hp : p.Always fun _ w => ∀ s, R s (w s)) {s s' : σ} (h : Runs others p s es r s') :
    R s s' := by
  induction h with
  | ret h => exact hothers _ _ h
  | raise h => exact hothers _ _ h
  | crash h => exact hothers _ _ h
  | done h hrest ih =>
    exact trans_of R (hothers _ _ h) (trans_of R (hp.1 _) (ih (hp.2.1 _)))
  | refused e h hrest ih => exact trans_of R (hothers _ _ h) (ih (hp.2.2 e))
  | lost e h hrest ih =>
    exact trans_of R (hothers _ _ h) (trans_of R (hp.1 _) (ih (hp.2.2 e)))

theorem Runs.others_lastStore {effect : ℓ → σ → σ} (hp : p.Always fun l w => w = effect l)
    {s s' : σ} (h : Runs others p s es r s') : others (lastStore effect s es) s' := by
  induction h with
  | ret h => exact h
  | raise h => exact h
  | crash h => exact h
  | done h hrest ih =>
    obtain ⟨rfl, hnext, -⟩ := hp
    exact ih (hnext _)
  | refused e h hrest ih => exact ih (hp.2.2 e)
  | lost e h hrest ih =>
    obtain ⟨rfl, -, hfault⟩ := hp
    exact ih (hfault e)

theorem runs_access_of_done {l : ℓ} {w : σ → σ} {next : σ → Prog σ ℓ ε α}
    {onFault : ε → Prog σ ℓ ε α} {s s' : σ} (h : Runs others (access l w next onFault) s es r s')
    (hr : r ≠ .crashed) (hdone : ∀ x ∈ es, x.fate = .done) :
    ∃ s₁ es', others s s₁ ∧ es = ⟨l, s₁, .done⟩ :: es' ∧ Runs others (next s₁) (w s₁) es' r s' := by
  cases h with
  | crash h => exact absurd rfl hr
  | done h hrest => exact ⟨_, _, h, rfl, hrest⟩
  | refused e h hrest =>
    have hfate := hdone _ List.mem_cons_self
    cases hfate
  | lost e h hrest =>
    have hfate := hdone _ List.mem_cons_self
    cases hfate

end Prog

end Concurrent
