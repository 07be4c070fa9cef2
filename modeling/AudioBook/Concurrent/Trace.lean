import AudioBook.Concurrent.Program

/-!
# Traces of a Program

One execution of one program, as the list of the accesses it made: the store each of them met,
and how it ended. The stores are arbitrary, so whatever other clients do in between is covered.
An execution returns, raises, or stops before one of its accesses because its process crashed.

Main results:

- `Prog.trace_bind` and `Prog.trace_tryCatch`: an execution of a composed program is composed.
- `Prog.settles_bind` and `Prog.settles_tryCatch`: following up composes.
-/

namespace Concurrent

variable {σ ℓ ε α β : Type}

inductive Fate (ε : Type)
  | done
  | refused (e : ε)
  /-- It took effect and its acknowledgement was lost. -/
  | lost (e : ε)
  deriving DecidableEq

structure Event (σ ℓ ε : Type) where
  label : ℓ
  store : σ
  fate : Fate ε

/-- The access took effect, whether or not the program learned of it. -/
def Event.TookEffect (x : Event σ ℓ ε) : Prop :=
  ∀ e, x.fate ≠ .refused e

instance (x : Event σ ℓ ε) : Decidable x.TookEffect :=
  match h : x.fate with
  | .done => isTrue (by simp [Event.TookEffect, h])
  | .refused e => isFalse (by simp [Event.TookEffect, h])
  | .lost e => isTrue (by simp [Event.TookEffect, h])

inductive Ending (ε α : Type)
  | returned (a : α)
  | raised (e : ε)
  | crashed
  deriving DecidableEq

namespace Prog

/-- How a program goes on after an access that met a store. -/
def resume (next : σ → Prog σ ℓ ε α) (onFault : ε → Prog σ ℓ ε α) (s : σ) :
    Fate ε → Prog σ ℓ ε α
  | .done => next s
  | .refused e => onFault e
  | .lost e => onFault e

inductive Trace : Prog σ ℓ ε α → List (Event σ ℓ ε) → Ending ε α → Prop
  | ret (a : α) : Trace (ret a) [] (.returned a)
  | raise (e : ε) : Trace (raise e) [] (.raised e)
  | crash (l : ℓ) (w : σ → σ) (next : σ → Prog σ ℓ ε α) (onFault : ε → Prog σ ℓ ε α) :
      Trace (access l w next onFault) [] .crashed
  | access {l : ℓ} {w : σ → σ} {next : σ → Prog σ ℓ ε α} {onFault : ε → Prog σ ℓ ε α}
      {es : List (Event σ ℓ ε)} {r : Ending ε α} (s : σ) (fate : Fate ε)
      (h : Trace (resume next onFault s fate) es r) :
      Trace (access l w next onFault) (⟨l, s, fate⟩ :: es) r

/-! ## Composed Executions -/

variable {es : List (Event σ ℓ ε)} {p : Prog σ ℓ ε α}

theorem trace_bind {f : α → Prog σ ℓ ε β} {r : Ending ε β} (h : Trace (p >>= f) es r) :
    (∃ a es₁ es₂, es = es₁ ++ es₂ ∧ Trace p es₁ (.returned a) ∧ Trace (f a) es₂ r) ∨
      (∃ e, r = .raised e ∧ Trace p es (.raised e)) ∨ r = .crashed ∧ Trace p es .crashed := by
  induction p generalizing es with
  | ret a => exact .inl ⟨a, [], es, rfl, .ret a, h⟩
  | raise e =>
    change Trace (raise e) es r at h
    cases h with
    | raise => exact .inr (.inl ⟨e, rfl, .raise e⟩)
  | access l w next onFault ihn ihf =>
    change Trace (.access l w (fun s => next s >>= f) fun e => onFault e >>= f) es r at h
    cases h with
    | crash => exact .inr (.inr ⟨rfl, .crash l w next onFault⟩)
    | @access _ _ _ _ es' _ s fate h =>
      -- Whatever became of the access, the rest is an execution of a shorter sequence.
      have hrest :
          (∃ a es₁ es₂, es' = es₁ ++ es₂ ∧
            Trace (resume next onFault s fate) es₁ (.returned a) ∧ Trace (f a) es₂ r) ∨
          (∃ e, r = .raised e ∧ Trace (resume next onFault s fate) es' (.raised e)) ∨
            r = .crashed ∧ Trace (resume next onFault s fate) es' .crashed := by
        cases fate with
        | done => exact ihn s h
        | refused e => exact ihf e h
        | lost e => exact ihf e h
      rcases hrest with ⟨a, es₁, es₂, rfl, h₁, h₂⟩ | ⟨e, rfl, h₁⟩ | ⟨rfl, h₁⟩
      · exact .inl ⟨a, _, es₂, rfl, .access s fate h₁, h₂⟩
      · exact .inr (.inl ⟨e, rfl, .access s fate h₁⟩)
      · exact .inr (.inr ⟨rfl, .access s fate h₁⟩)

variable {r : Ending ε α}

theorem trace_tryCatch {handler : ε → Prog σ ℓ ε α} (h : Trace (tryCatchThe ε p handler) es r) :
    (∃ e es₁ es₂, es = es₁ ++ es₂ ∧ Trace p es₁ (.raised e) ∧ Trace (handler e) es₂ r) ∨
      (∃ a, r = .returned a ∧ Trace p es (.returned a)) ∨ r = .crashed ∧ Trace p es .crashed := by
  induction p generalizing es with
  | ret a =>
    change Trace (ret a) es r at h
    cases h with
    | ret => exact .inr (.inl ⟨a, rfl, .ret a⟩)
  | raise e => exact .inl ⟨e, [], es, rfl, .raise e, h⟩
  | access l w next onFault ihn ihf =>
    change Trace (.access l w (fun s => tryCatchThe ε (next s) handler)
      fun e => tryCatchThe ε (onFault e) handler) es r at h
    cases h with
    | crash => exact .inr (.inr ⟨rfl, .crash l w next onFault⟩)
    | @access _ _ _ _ es' _ s fate h =>
      have hrest :
          (∃ e es₁ es₂, es' = es₁ ++ es₂ ∧
            Trace (resume next onFault s fate) es₁ (.raised e) ∧ Trace (handler e) es₂ r) ∨
          (∃ a, r = .returned a ∧ Trace (resume next onFault s fate) es' (.returned a)) ∨
            r = .crashed ∧ Trace (resume next onFault s fate) es' .crashed := by
        cases fate with
        | done => exact ihn s h
        | refused e => exact ihf e h
        | lost e => exact ihf e h
      rcases hrest with ⟨e, es₁, es₂, rfl, h₁, h₂⟩ | ⟨a, rfl, h₁⟩ | ⟨rfl, h₁⟩
      · exact .inl ⟨e, _, es₂, rfl, .access s fate h₁, h₂⟩
      · exact .inr (.inl ⟨a, rfl, .access s fate h₁⟩)
      · exact .inr (.inr ⟨rfl, .access s fate h₁⟩)

theorem trace_bind_returned {f : α → Prog σ ℓ ε β} {b : β} (h : Trace (p >>= f) es (.returned b)) :
    ∃ a es₁ es₂, es = es₁ ++ es₂ ∧ Trace p es₁ (.returned a) ∧ Trace (f a) es₂ (.returned b) := by
  rcases trace_bind h with h | ⟨e, heq, -⟩ | ⟨heq, -⟩
  · exact h
  · cases heq
  · cases heq

theorem Always.of_trace {P : ℓ → (σ → σ) → Prop} (h : p.Trace es r) (hp : p.Always P) :
    ∀ x ∈ es, ∃ w, P x.label w := by
  induction h with
  | ret => simp
  | raise => simp
  | crash => simp
  | access s fate h ih =>
    obtain ⟨hw, hnext, hfault⟩ := hp
    refine List.forall_mem_cons.mpr ⟨⟨_, hw⟩, ih ?_⟩
    cases fate with
    | done => exact hnext s
    | refused e => exact hfault e
    | lost e => exact hfault e

theorem trace_atomically {l : ℓ} {t : StateT σ (Except ε) α} (h : (atomically l t).Trace es r) :
    (es = [] ∧ r = .crashed) ∨ ∃ s fate, es = [⟨l, s, fate⟩] ∧
      (∀ a, r = .returned a → fate = .done ∧ ∃ s', t s = .ok (a, s')) ∧
      (fate = .done → (∃ a s', t s = .ok (a, s')) → ∀ e, r ≠ .raised e) := by
  cases h with
  | crash => exact .inl ⟨rfl, rfl⟩
  | @access _ _ _ _ rest _ s fate h =>
    right
    cases fate with
    | done =>
      change Trace (outcome t s) rest r at h
      rw [outcome] at h
      cases ht : t s with
      | ok p =>
        obtain ⟨a, s'⟩ := p
        rw [ht] at h
        cases h
        exact ⟨s, .done, rfl, by simp [ht], by simp⟩
      | error e =>
        rw [ht] at h
        cases h
        exact ⟨s, .done, rfl, by simp, by simp [ht]⟩
    | refused e =>
      cases h
      exact ⟨s, .refused e, rfl, by simp, by simp⟩
    | lost e =>
      cases h
      exact ⟨s, .lost e, rfl, by simp, by simp⟩

theorem trace_read {l : ℓ} {f : σ → α} (h : (read l f : Prog σ ℓ ε α).Trace es r) :
    (es = [] ∧ r = .crashed) ∨ ∃ s fate, es = [⟨l, s, fate⟩] ∧
      (∀ a, r = .returned a → fate = .done ∧ a = f s) ∧
      (fate = .done → ∀ e, r ≠ .raised e) := by
  cases h with
  | crash => exact .inl ⟨rfl, rfl⟩
  | @access _ _ _ _ rest _ s fate h =>
    right
    cases fate with
    | done =>
      change Trace (ret (f s)) rest r at h
      cases h
      exact ⟨s, .done, rfl, by simp, by simp⟩
    | refused e =>
      cases h
      exact ⟨s, .refused e, rfl, by simp, by simp⟩
    | lost e =>
      cases h
      exact ⟨s, .lost e, rfl, by simp, by simp⟩

/-! ## Programs That Raise Only When an Access Fails -/

section quiet

variable (ok : Event σ ℓ ε → Prop)

/-- An execution whose accesses all went well does not raise. -/
def Quiet (p : Prog σ ℓ ε α) : Prop :=
  ∀ es r, p.Trace es r → (∀ x ∈ es, ok x) → ∀ e, r ≠ .raised e

variable {ok}

theorem quiet_pure (a : α) : Quiet ok (pure a : Prog σ ℓ ε α) := by
  intro es r h _ e
  cases h
  simp

theorem quiet_bind {p : Prog σ ℓ ε α} {f : α → Prog σ ℓ ε β} (hp : p.Quiet ok)
    (hf : ∀ a, (f a).Quiet ok) : (p >>= f).Quiet ok := by
  intro es r h hok e
  rcases trace_bind h with ⟨a, es₁, es₂, rfl, -, h₂⟩ | ⟨e', rfl, h₁⟩ | ⟨rfl, -⟩
  · exact hf a es₂ r h₂ (fun x hx => hok x (List.mem_append_right _ hx)) e
  · exact absurd rfl (hp es _ h₁ hok e')
  · simp

theorem quiet_read (hok : ∀ x, ok x → x.fate = .done) (l : ℓ) (f : σ → α) :
    (read l f : Prog σ ℓ ε α).Quiet ok := by
  intro es r h hall e
  rcases trace_read h with ⟨-, rfl⟩ | ⟨s, fate, rfl, -, hraise⟩
  · simp
  · exact hraise (hok _ (hall _ List.mem_cons_self)) e

theorem quiet_atomically {l : ℓ} {t : StateT σ (Except ε) α}
    (hok : ∀ x, x.label = l → ok x → x.fate = .done ∧ Commits t x.store) :
    (atomically l t : Prog σ ℓ ε α).Quiet ok := by
  intro es r h hall e
  rcases trace_atomically h with ⟨-, rfl⟩ | ⟨s, fate, rfl, -, hraise⟩
  · simp
  · obtain ⟨hfate, hcommit⟩ := hok _ rfl (hall _ List.mem_cons_self)
    exact hraise hfate hcommit e

end quiet

/-! ## Following Up -/

section settles

variable (starts ok : Event σ ℓ ε → Prop)
  (done : List (Event σ ℓ ε) → Event σ ℓ ε → List (Event σ ℓ ε) → Prop)

/-- In every execution that does not crash, an access that `starts` something is `done` with, in
terms of what came before it and what comes after, if it and all later accesses went well. -/
def Settles (p : Prog σ ℓ ε α) : Prop :=
  ∀ es r, p.Trace es r → r ≠ .crashed → ∀ pre x post, es = pre ++ x :: post → starts x →
    (∀ y ∈ x :: post, ok y) → done pre x post

variable {starts ok done} {p : Prog σ ℓ ε α}

theorem settles_of_always (h : p.Always fun l _ => ∀ x : Event σ ℓ ε, x.label = l → ¬ starts x) :
    p.Settles starts ok done := by
  rintro es r htrace - pre x post rfl hx -
  obtain ⟨-, hnot⟩ := h.of_trace htrace x (by simp)
  exact absurd hx (hnot x rfl)

theorem Settles.mono {done' : List (Event σ ℓ ε) → Event σ ℓ ε → List (Event σ ℓ ε) → Prop}
    (h : p.Settles starts ok done) (hdone : ∀ pre x post, done pre x post → done' pre x post) :
    p.Settles starts ok done' :=
  fun es r htrace hr pre x post heq hx hok => hdone _ _ _ (h es r htrace hr pre x post heq hx hok)

theorem settles_pure (a : α) : (pure a : Prog σ ℓ ε α).Settles starts ok done :=
  settles_of_always trivial

theorem settles_throw (e : ε) : (throw e : Prog σ ℓ ε α).Settles starts ok done :=
  settles_of_always trivial

variable {f : α → Prog σ ℓ ε β}

theorem settles_bind_of_trace
    (part : α → List (Event σ ℓ ε) → Event σ ℓ ε → List (Event σ ℓ ε) → Prop)
    (hp : p.Always fun l _ => ∀ x : Event σ ℓ ε, x.label = l → ¬ starts x)
    (hf : ∀ a, (f a).Settles starts ok (part a))
    (hdone : ∀ a es₁ pre x post, p.Trace es₁ (.returned a) → part a pre x post → done (es₁ ++ pre) x post) :
    (p >>= f).Settles starts ok done := by
  have hnone : ∀ es r, p.Trace es r → ∀ x ∈ es, ¬ starts x := fun es r h x hx hstart => by
    obtain ⟨-, hnot⟩ := hp.of_trace h x hx
    exact hnot x rfl hstart
  intro es r h hr pre x post heq hx hok
  rcases trace_bind h with ⟨a, es₁, es₂, rfl, h₁, h₂⟩ | ⟨e, rfl, h₁⟩ | ⟨rfl, -⟩
  · rcases List.append_eq_append_iff.mp heq with ⟨mid, rfl, heq₂⟩ | ⟨mid, heq₁, hpost⟩
    · exact hdone a es₁ mid x post h₁ (hf a es₂ r h₂ hr mid x post heq₂ hx hok)
    · cases mid with
      | nil =>
        rw [List.append_nil] at heq₁
        subst heq₁
        have hpart := hf a es₂ r h₂ hr [] x post (by simpa using hpost.symm) hx hok
        simpa using hdone a es₁ [] x post h₁ hpart
      | cons y mid =>
        obtain ⟨rfl, rfl⟩ := List.cons.inj hpost
        exact absurd hx (hnone es₁ _ h₁ x (by simp [heq₁]))
  · exact absurd hx (hnone es _ h₁ x (by simp [heq]))
  · exact absurd rfl hr

theorem settles_atomically_bind {l : ℓ} {t : StateT σ (Except ε) α}
    (hok : ∀ x, x.label = l → ok x → x.fate = .done ∧ Commits t x.store)
    (halways : ∀ a, (f a).Always fun l _ => ∀ x : Event σ ℓ ε, x.label = l → ¬ starts x)
    (hdone : ∀ x es a r, x.label = l → (f a).Trace es r → r ≠ .crashed → (∀ y ∈ es, ok y) → done [] x es) :
    (atomically l t >>= f).Settles starts ok done := by
  intro es r h hr pre x post heq hx hall
  rcases trace_bind h with ⟨a, es₁, es₂, rfl, h₁, h₂⟩ | ⟨e, rfl, h₁⟩ | ⟨rfl, -⟩
  · rcases trace_atomically h₁ with ⟨-, hcrash⟩ | ⟨s, fate, rfl, -, -⟩
    · cases hcrash
    cases pre with
    | nil =>
      obtain ⟨rfl, rfl⟩ := List.cons.inj heq
      exact hdone _ es₂ a r rfl h₂ hr fun y hy => hall y (List.mem_cons_of_mem _ hy)
    | cons y pre =>
      obtain ⟨-, hes₂⟩ := List.cons.inj heq
      have hmem : x ∈ es₂ := by
        rw [show es₂ = pre ++ x :: post from hes₂]
        simp
      obtain ⟨-, hnot⟩ := (halways a).of_trace h₂ x hmem
      exact absurd hx (hnot x rfl)
  · -- The transaction did not go well, so nothing is claimed about it.
    rcases trace_atomically h₁ with ⟨-, hcrash⟩ | ⟨s, fate, rfl, -, hraise⟩
    · cases hcrash
    have hmem : x ∈ [(⟨l, s, fate⟩ : Event σ ℓ ε)] := by
      rw [heq]
      simp
    obtain rfl := List.mem_singleton.mp hmem
    obtain ⟨hfate, hcommit⟩ := hok _ rfl (hall _ List.mem_cons_self)
    exact absurd rfl (hraise hfate hcommit e)
  · exact absurd rfl hr

theorem settles_atomically_bind_of_quiet {l : ℓ} {t : StateT σ (Except ε) α}
    (hok : ∀ x, x.label = l → ok x → x.fate = .done ∧ Commits t x.store)
    (halways : ∀ a, (f a).Always fun l _ => ∀ x : Event σ ℓ ε, x.label = l → ¬ starts x)
    (hquiet : ∀ a, (f a).Quiet ok)
    (hdone : ∀ x es a b, x.label = l → (f a).Trace es (.returned b) → (∀ y ∈ es, ok y) → done [] x es) :
    (atomically l t >>= f).Settles starts ok done := by
  refine settles_atomically_bind hok halways fun x es a r hx h hr hall => ?_
  cases r with
  | returned b => exact hdone x es a b hx h hall
  | raised e => exact absurd rfl (hquiet a es _ h hall e)
  | crashed => exact absurd rfl hr

variable (hmono : ∀ {es₁ pre x post es₂}, done pre x post → done (es₁ ++ pre) x (post ++ es₂))

include hmono

private theorem done_append {es₁ es₂ pre post : List (Event σ ℓ ε)} {x : Event σ ℓ ε}
    (h : es₁ ++ es₂ = pre ++ x :: post) (hok : ∀ y ∈ x :: post, ok y)
    (h₁ : ∀ post₁, es₁ = pre ++ x :: post₁ → (∀ y ∈ x :: post₁, ok y) → done pre x post₁)
    (h₂ : ∀ pre₂, es₂ = pre₂ ++ x :: post → done pre₂ x post) : done pre x post := by
  rcases List.append_eq_append_iff.mp h with ⟨mid, rfl, heq⟩ | ⟨mid, heq, hpost⟩
  · simpa using @hmono es₁ mid x post [] (h₂ mid heq)
  · cases mid with
    | nil =>
      rw [List.append_nil] at heq
      subst heq
      simpa using @hmono es₁ [] x post [] (h₂ [] (by simpa using hpost.symm))
    | cons y mid =>
      obtain ⟨rfl, rfl⟩ := List.cons.inj hpost
      have hokmid : ∀ z ∈ x :: mid, ok z := fun z hz => hok z (List.mem_append_left es₂ hz)
      simpa using @hmono [] pre x mid es₂ (h₁ mid heq hokmid)

theorem settles_bind (hp : p.Settles starts ok done) (hf : ∀ a, (f a).Settles starts ok done) :
    (p >>= f).Settles starts ok done := by
  intro es r h hr pre x post heq hx hok
  rcases trace_bind h with ⟨a, es₁, es₂, rfl, h₁, h₂⟩ | ⟨e, rfl, h₁⟩ | ⟨rfl, -⟩
  · exact done_append @hmono heq hok
      (fun post₁ heq₁ hok₁ => hp es₁ _ h₁ (by simp) pre x post₁ heq₁ hx hok₁)
      fun pre₂ heq₂ => hf a es₂ r h₂ hr pre₂ x post heq₂ hx hok
  · exact hp es _ h₁ (by simp) pre x post heq hx hok
  · exact absurd rfl hr

theorem settles_tryCatch {handler : ε → Prog σ ℓ ε α} (hp : p.Settles starts ok done)
    (hh : ∀ e, (handler e).Settles starts ok done) :
    (tryCatchThe ε p handler).Settles starts ok done := by
  intro es r h hr pre x post heq hx hok
  rcases trace_tryCatch h with ⟨e, es₁, es₂, rfl, h₁, h₂⟩ | ⟨a, rfl, h₁⟩ | ⟨rfl, -⟩
  · exact done_append @hmono heq hok
      (fun post₁ heq₁ hok₁ => hp es₁ _ h₁ (by simp) pre x post₁ heq₁ hx hok₁)
      fun pre₂ heq₂ => hh e es₂ r h₂ hr pre₂ x post heq₂ hx hok
  · exact hp es _ h₁ (by simp) pre x post heq hx hok
  · exact absurd rfl hr

end settles

/-! ## Executions in a Changing Store -/

/-- The executions of a program from a store, where `others` says what the store can become while
the program does not access it. -/
inductive Runs (others : σ → σ → Prop) :
    Prog σ ℓ ε α → σ → List (Event σ ℓ ε) → Ending ε α → σ → Prop
  | ret {a : α} {s s' : σ} (h : others s s') : Runs others (ret a) s [] (.returned a) s'
  | raise {e : ε} {s s' : σ} (h : others s s') : Runs others (raise e) s [] (.raised e) s'
  | crash {l : ℓ} {w : σ → σ} {next : σ → Prog σ ℓ ε α} {onFault : ε → Prog σ ℓ ε α} {s s' : σ}
      (h : others s s') : Runs others (access l w next onFault) s [] .crashed s'
  | done {l : ℓ} {w : σ → σ} {next : σ → Prog σ ℓ ε α} {onFault : ε → Prog σ ℓ ε α} {s s₁ s' : σ}
      {es : List (Event σ ℓ ε)} {r : Ending ε α} (h : others s s₁)
      (hrest : Runs others (next s₁) (w s₁) es r s') :
      Runs others (access l w next onFault) s (⟨l, s₁, .done⟩ :: es) r s'
  | refused {l : ℓ} {w : σ → σ} {next : σ → Prog σ ℓ ε α} {onFault : ε → Prog σ ℓ ε α}
      {s s₁ s' : σ} {es : List (Event σ ℓ ε)} {r : Ending ε α} (e : ε) (h : others s s₁)
      (hrest : Runs others (onFault e) s₁ es r s') :
      Runs others (access l w next onFault) s (⟨l, s₁, .refused e⟩ :: es) r s'
  | lost {l : ℓ} {w : σ → σ} {next : σ → Prog σ ℓ ε α} {onFault : ε → Prog σ ℓ ε α}
      {s s₁ s' : σ} {es : List (Event σ ℓ ε)} {r : Ending ε α} (e : ε) (h : others s s₁)
      (hrest : Runs others (onFault e) (w s₁) es r s') :
      Runs others (access l w next onFault) s (⟨l, s₁, .lost e⟩ :: es) r s'

theorem Runs.trace {others : σ → σ → Prop} {s s' : σ} (h : Runs others p s es r s') :
    p.Trace es r := by
  induction h with
  | ret => exact .ret _
  | raise => exact .raise _
  | crash => exact .crash _ _ _ _
  | done _ _ ih => exact .access _ .done ih
  | refused e _ _ ih => exact .access _ (.refused e) ih
  | lost e _ _ ih => exact .access _ (.lost e) ih

/-- Run a program alone; the list says how its accesses end, and the process crashes at its
end. -/
def execute : Prog σ ℓ ε α → σ → List (Fate ε) → List (Event σ ℓ ε) × Ending ε α × σ
  | ret a, s, _ => ([], .returned a, s)
  | raise e, s, _ => ([], .raised e, s)
  | access _ _ _ _, s, [] => ([], .crashed, s)
  | access l w next _, s, .done :: fates =>
      let rest := execute (next s) (w s) fates
      (⟨l, s, .done⟩ :: rest.1, rest.2)
  | access l _ _ onFault, s, .refused e :: fates =>
      let rest := execute (onFault e) s fates
      (⟨l, s, .refused e⟩ :: rest.1, rest.2)
  | access l w _ onFault, s, .lost e :: fates =>
      let rest := execute (onFault e) (w s) fates
      (⟨l, s, .lost e⟩ :: rest.1, rest.2)

theorem runs_execute {others : σ → σ → Prop} (hrefl : ∀ s, others s s) (p : Prog σ ℓ ε α) (s : σ)
    (fates : List (Fate ε)) :
    Runs others p s (p.execute s fates).1 (p.execute s fates).2.1 (p.execute s fates).2.2 := by
  induction p generalizing s fates with
  | ret a => exact .ret (hrefl s)
  | raise e => exact .raise (hrefl s)
  | access l w next onFault ihn ihf =>
    cases fates with
    | nil => exact .crash (hrefl s)
    | cons fate fates =>
      cases fate with
      | done => exact .done (hrefl s) (ihn s (w s) fates)
      | refused e => exact .refused e (hrefl s) (ihf e s fates)
      | lost e => exact .lost e (hrefl s) (ihf e (w s) fates)

end Prog

end Concurrent
