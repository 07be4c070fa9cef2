import AudioBook.Concurrent.Trace

/-!
# Executions of a Program

Programs that catch no exception: an access that does not go well is the last one, and the
program raises. What such a program does up to a failure is what it would have done without one.
And what an execution must have seen before it makes an access of a kind: every way it can end is
covered, since what comes before an access does not depend on what comes after it.

Main results:

- `Prog.straight_bind` and `Prog.straight_rethrow`: being straight follows the structure of a
  program.
- `Prog.Straight.eq_nil_of_trace`: nothing comes after an access that did not go well.
- `Prog.preceded_bind_of_trace`, `Prog.preceded_tryCatch`: the rules of sequencing and handling.
-/

namespace Concurrent

variable {σ ℓ ε α β : Type}

namespace Prog

/-! ## Straight Programs -/

section straight

variable (ok : Event σ ℓ ε → Prop) (P : ℓ → (σ → σ) → Prop)

/-- Every access has the property `P`, and one that fails, or that is acknowledged and is not
`ok`, is followed by nothing but an exception. -/
def Straight : Prog σ ℓ ε α → Prop
  | ret _ => True
  | raise _ => True
  | access l w next onFault => P l w ∧ (∀ e, ∃ e', onFault e = raise e') ∧
      ∀ s, Straight (next s) ∧ (ok ⟨l, s, .done⟩ ∨ ∃ e, next s = raise e)

variable {ok P} {p : Prog σ ℓ ε α}

theorem Straight.always (h : p.Straight ok P) : p.Always P := by
  induction p with
  | ret a => trivial
  | raise e => trivial
  | access l w next onFault ihn ihf =>
    obtain ⟨hw, hfault, hnext⟩ := h
    refine ⟨hw, fun s => ihn s (hnext s).1, fun e => ?_⟩
    obtain ⟨e', he⟩ := hfault e
    rw [he]
    trivial

theorem Straight.mono {P' : ℓ → (σ → σ) → Prop} (hP : ∀ l w, P l w → P' l w) (h : p.Straight ok P) :
    p.Straight ok P' := by
  induction p with
  | ret a => trivial
  | raise e => trivial
  | access l w next onFault ihn ihf =>
    obtain ⟨hw, hfault, hnext⟩ := h
    exact ⟨hP l w hw, hfault, fun s => ⟨ihn s (hnext s).1, (hnext s).2⟩⟩

theorem straight_bind {f : α → Prog σ ℓ ε β} (hp : p.Straight ok P) (hf : ∀ a, (f a).Straight ok P) :
    (p >>= f).Straight ok P := by
  induction p with
  | ret a => exact hf a
  | raise e => trivial
  | access l w next onFault ihn ihf =>
    obtain ⟨hw, hfault, hnext⟩ := hp
    refine ⟨hw, fun e => ?_, fun s => ⟨ihn s (hnext s).1, (hnext s).2.imp_right ?_⟩⟩
    · obtain ⟨e', he⟩ := hfault e
      exact ⟨e', congrArg (fun q => Prog.bind q f) he⟩
    · rintro ⟨e, he⟩
      exact ⟨e, congrArg (fun q => Prog.bind q f) he⟩

theorem straight_rethrow {handler : ε → Prog σ ℓ ε α} (hp : p.Straight ok P)
    (hh : ∀ e, ∃ e', handler e = raise e') : (tryCatchThe ε p handler).Straight ok P := by
  have hraise : ∀ q : Prog σ ℓ ε α, (∃ e, q = raise e) →
      ∃ e, Prog.tryCatch q handler = raise e := by
    rintro _ ⟨e, rfl⟩
    exact hh e
  induction p with
  | ret a => trivial
  | raise e =>
    obtain ⟨e', he⟩ := hh e
    change (handler e).Straight ok P
    rw [he]
    trivial
  | access l w next onFault ihn ihf =>
    obtain ⟨hw, hfault, hnext⟩ := hp
    exact ⟨hw, fun e => hraise _ (hfault e),
      fun s => ⟨ihn s (hnext s).1, (hnext s).2.imp_right (hraise _)⟩⟩

theorem straight_read {l : ℓ} {f : σ → α} (hP : P l id) (hok : ∀ s, ok ⟨l, s, .done⟩) :
    (read l f : Prog σ ℓ ε α).Straight ok P :=
  ⟨hP, fun e => ⟨e, rfl⟩, fun s => ⟨trivial, .inl (hok s)⟩⟩

theorem straight_atomically {l : ℓ} {t : StateT σ (Except ε) α} (hP : P l (commit t))
    (hok : ∀ s, Commits t s → ok ⟨l, s, .done⟩) :
    (atomically l t : Prog σ ℓ ε α).Straight ok P := by
  refine ⟨hP, fun e => ⟨e, rfl⟩, fun s => ?_⟩
  rw [outcome]
  cases ht : t s with
  | ok r => exact ⟨trivial, .inl (hok s ⟨r.1, r.2, ht⟩)⟩
  | error e => exact ⟨trivial, .inr ⟨e, rfl⟩⟩

theorem Straight.eq_nil_of_trace (hp : p.Straight ok P) {pre post : List (Event σ ℓ ε)}
    {x : Event σ ℓ ε} {r : Ending ε α} (h : p.Trace (pre ++ x :: post) r) (hx : ¬ ok x) :
    post = [] ∧ ∃ e, r = .raised e := by
  induction p generalizing pre with
  | ret a => cases pre <;> cases h
  | raise e => cases pre <;> cases h
  | access l w next onFault ihn ihf =>
    obtain ⟨-, hfault, hnext⟩ := hp
    have hend : ∀ q : Prog σ ℓ ε α, (∃ e, q = raise e) → ∀ es, q.Trace es r →
        es = [] ∧ ∃ e, r = .raised e := by
      rintro _ ⟨e, rfl⟩ es hes
      cases hes
      exact ⟨rfl, e, rfl⟩
    cases pre with
    | nil =>
      cases h with
      | access s fate h =>
        cases fate with
        | done => exact hend _ ((hnext s).2.resolve_left hx) _ h
        | refused e => exact hend _ (hfault e) _ h
        | lost e => exact hend _ (hfault e) _ h
    | cons y pre =>
      cases h with
      | access s fate h =>
        cases fate with
        | done => exact ihn s (hnext s).1 h
        | refused e => exact absurd (hend _ (hfault e) _ h).1 (by simp)
        | lost e => exact absurd (hend _ (hfault e) _ h).1 (by simp)

theorem Straight.ok_of_returned (hp : p.Straight ok P) {es : List (Event σ ℓ ε)} {a : α}
    (h : p.Trace es (.returned a)) : ∀ x ∈ es, ok x := by
  intro x hx
  by_contra hnot
  obtain ⟨pre, post, rfl⟩ := List.append_of_mem hx
  obtain ⟨-, e, heq⟩ := hp.eq_nil_of_trace h hnot
  cases heq

end straight

/-! ## What Comes Before an Access -/

variable (starts : Event σ ℓ ε → Prop) (known : List (Event σ ℓ ε) → Event σ ℓ ε → Prop)

/-- In every execution, an access that `starts` something comes after accesses from which
something is `known`. -/
def Preceded (p : Prog σ ℓ ε α) : Prop :=
  ∀ es r, p.Trace es r → ∀ pre x post, es = pre ++ x :: post → starts x → known pre x

variable {starts known} {p : Prog σ ℓ ε α}

theorem preceded_of_always (h : p.Always fun l _ => ∀ x : Event σ ℓ ε, x.label = l → ¬ starts x) :
    p.Preceded starts known := by
  rintro es r htrace pre x post rfl hx
  obtain ⟨-, hnot⟩ := h.of_trace htrace x (by simp)
  exact absurd hx (hnot x rfl)

theorem preceded_atomically {l : ℓ} {t : StateT σ (Except ε) α}
    (h : ∀ x : Event σ ℓ ε, x.label = l → starts x → known [] x) :
    (atomically l t : Prog σ ℓ ε α).Preceded starts known := by
  intro es r htrace pre x post heq hx
  rcases trace_atomically htrace with ⟨rfl, -⟩ | ⟨s, fate, rfl, -⟩
  · simp at heq
  · cases pre with
    | nil =>
      simp only [List.nil_append, List.cons.injEq] at heq
      exact h x (by rw [← heq.1]) hx
    | cons y pre => simp at heq

variable {f : α → Prog σ ℓ ε β}

theorem preceded_bind_of_trace (part : α → List (Event σ ℓ ε) → Event σ ℓ ε → Prop)
    (hp : p.Always fun l _ => ∀ x : Event σ ℓ ε, x.label = l → ¬ starts x)
    (hf : ∀ a, (f a).Preceded starts (part a))
    (hknown : ∀ a es₁ pre x, p.Trace es₁ (.returned a) → starts x → part a pre x → known (es₁ ++ pre) x) :
    (p >>= f).Preceded starts known := by
  have hnone : ∀ es r, p.Trace es r → ∀ x ∈ es, ¬ starts x := fun es r h x hx hstart => by
    obtain ⟨-, hnot⟩ := hp.of_trace h x hx
    exact hnot x rfl hstart
  intro es r h pre x post heq hx
  rcases trace_bind h with ⟨a, es₁, es₂, rfl, h₁, h₂⟩ | ⟨e, rfl, h₁⟩ | ⟨rfl, h₁⟩
  · rcases List.append_eq_append_iff.mp heq with ⟨mid, rfl, heq₂⟩ | ⟨mid, heq₁, hpost⟩
    · exact hknown a es₁ mid x h₁ hx (hf a es₂ r h₂ mid x post heq₂ hx)
    · cases mid with
      | nil =>
        rw [List.append_nil] at heq₁
        subst heq₁
        have hpart := hf a es₂ r h₂ [] x post (by simpa using hpost.symm) hx
        simpa using hknown a es₁ [] x h₁ hx hpart
      | cons y mid =>
        obtain ⟨rfl, rfl⟩ := List.cons.inj hpost
        exact absurd hx (hnone es₁ _ h₁ x (by simp [heq₁]))
  · exact absurd hx (hnone es _ h₁ x (by simp [heq]))
  · exact absurd hx (hnone es _ h₁ x (by simp [heq]))

theorem preceded_bind (hmono : ∀ es₁ pre x, known pre x → known (es₁ ++ pre) x)
    (hp : p.Always fun l _ => ∀ x : Event σ ℓ ε, x.label = l → ¬ starts x)
    (hf : ∀ a, (f a).Preceded starts known) : (p >>= f).Preceded starts known :=
  preceded_bind_of_trace (fun _ => known) hp hf fun _ es₁ pre x _ _ => hmono es₁ pre x

private theorem known_append {es₁ es₂ pre post : List (Event σ ℓ ε)} {x : Event σ ℓ ε}
    (h : es₁ ++ es₂ = pre ++ x :: post) (hx : starts x) (hnone : ∀ y ∈ es₂, ¬ starts y)
    (h₁ : ∀ post₁, es₁ = pre ++ x :: post₁ → known pre x) : known pre x := by
  rcases List.append_eq_append_iff.mp h with ⟨mid, rfl, heq⟩ | ⟨mid, heq, hpost⟩
  · exact absurd hx (hnone x (by simp [heq]))
  · cases mid with
    | nil =>
      rw [List.nil_append] at hpost
      exact absurd hx (hnone x (by simp [← hpost]))
    | cons y mid =>
      obtain ⟨rfl, rfl⟩ := List.cons.inj hpost
      exact h₁ mid heq

theorem preceded_bind_of_preceded (hp : p.Preceded starts known)
    (hf : ∀ a, (f a).Always fun l _ => ∀ x : Event σ ℓ ε, x.label = l → ¬ starts x) :
    (p >>= f).Preceded starts known := by
  intro es r h pre x post heq hx
  rcases trace_bind h with ⟨a, es₁, es₂, rfl, h₁, h₂⟩ | ⟨e, rfl, h₁⟩ | ⟨rfl, h₁⟩
  · refine known_append heq hx (fun y hy hstart => ?_) fun post₁ heq₁ => hp es₁ _ h₁ pre x post₁ heq₁ hx
    obtain ⟨-, hnot⟩ := (hf a).of_trace h₂ y hy
    exact hnot y rfl hstart
  · exact hp es _ h₁ pre x post heq hx
  · exact hp es _ h₁ pre x post heq hx

theorem preceded_tryCatch {handler : ε → Prog σ ℓ ε α} (hp : p.Preceded starts known)
    (hh : ∀ e, (handler e).Always fun l _ => ∀ x : Event σ ℓ ε, x.label = l → ¬ starts x) :
    (tryCatchThe ε p handler).Preceded starts known := by
  intro es r h pre x post heq hx
  rcases trace_tryCatch h with ⟨e, es₁, es₂, rfl, h₁, h₂⟩ | ⟨a, rfl, h₁⟩ | ⟨rfl, h₁⟩
  · refine known_append heq hx (fun y hy hstart => ?_) fun post₁ heq₁ => hp es₁ _ h₁ pre x post₁ heq₁ hx
    obtain ⟨-, hnot⟩ := (hh e).of_trace h₂ y hy
    exact hnot y rfl hstart
  · exact hp es _ h₁ pre x post heq hx
  · exact hp es _ h₁ pre x post heq hx

end Prog

end Concurrent
