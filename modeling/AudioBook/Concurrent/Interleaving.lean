import AudioBook.Concurrent.Program
import Mathlib.Logic.Relation

/-!
# Interleaved Runs

Any number of programs run over one store. At every step a new program may start, one running
program makes its next access, one access fails from outside, or one program dies. Nothing is
assumed about the order, so a run is any interleaving with any faults.

Main results:

- `System.exists_run_of_playAll`: what a replay computes is reached by a run.
-/

namespace Concurrent

variable {σ ι ℓ ε α β : Type}

/-- A store with clients: where it starts, which requests can arrive, and what serves them. -/
structure System (σ ι ℓ ε : Type) where
  init : σ → Prop
  /-- The requests that may arrive in a store. -/
  enabled : ι → σ → Prop
  program : ι → Prog σ ℓ ε Unit

structure Config (σ ℓ ε : Type) where
  store : σ
  /-- What is left to run of every program that has started. -/
  threads : List (Prog σ ℓ ε Unit)

/-- A predicate on accesses that admits all of them. -/
def anyAccess : ℓ → σ → Prop := fun _ _ => True

instance (l : ℓ) (s : σ) : Decidable (anyAccess l s) := isTrue trivial

namespace System

variable (sys : System σ ι ℓ ε) (admits : ℓ → σ → Prop)

/-- One step of the system. An access that takes effect must be admitted in the store it
meets. -/
inductive Step : Config σ ℓ ε → Config σ ℓ ε → Prop
  /-- A request arrives and its program starts. -/
  | spawn {c : Config σ ℓ ε} (i : ι) (h : sys.enabled i c.store) :
      Step c ⟨c.store, c.threads ++ [sys.program i]⟩
  | proceed {c : Config σ ℓ ε} {n : ℕ} {l : ℓ} {w : σ → σ} {next : σ → Prog σ ℓ ε Unit}
      {onFault : ε → Prog σ ℓ ε Unit} (h : c.threads[n]? = some (.access l w next onFault))
      (ha : admits l c.store) : Step c ⟨w c.store, c.threads.set n (next c.store)⟩
  | refuse {c : Config σ ℓ ε} {n : ℕ} {l : ℓ} {w : σ → σ} {next : σ → Prog σ ℓ ε Unit}
      {onFault : ε → Prog σ ℓ ε Unit} (e : ε)
      (h : c.threads[n]? = some (.access l w next onFault)) :
      Step c ⟨c.store, c.threads.set n (onFault e)⟩
  /-- An access takes effect, but its acknowledgement is lost. -/
  | lose {c : Config σ ℓ ε} {n : ℕ} {l : ℓ} {w : σ → σ} {next : σ → Prog σ ℓ ε Unit}
      {onFault : ε → Prog σ ℓ ε Unit} (e : ε)
      (h : c.threads[n]? = some (.access l w next onFault)) (ha : admits l c.store) :
      Step c ⟨w c.store, c.threads.set n (onFault e)⟩
  | crash {c : Config σ ℓ ε} (n : ℕ) : Step c ⟨c.store, c.threads.eraseIdx n⟩

abbrev Run : Config σ ℓ ε → Config σ ℓ ε → Prop :=
  Relation.ReflTransGen (sys.Step admits)

/-- What a run can reach from an initial store in which nothing runs yet. -/
def Reachable (c : Config σ ℓ ε) : Prop :=
  ∃ s, sys.init s ∧ sys.Run admits ⟨s, []⟩ c

variable {sys admits}

theorem run_of_evaluate (hadmits : ∀ l s, admits l s) (p : Prog σ ℓ ε Unit) (s : σ)
    (threads : List (Prog σ ℓ ε Unit)) :
    ∃ q, sys.Run admits ⟨s, threads ++ [p]⟩
      ⟨(p.evaluate (fun _ => none) s).2, threads ++ [q]⟩ := by
  induction p generalizing s with
  | ret a => exact ⟨.ret a, .refl⟩
  | raise e => exact ⟨.raise e, .refl⟩
  | access l w next onFault ihn ihf =>
    obtain ⟨q, hrun⟩ := ihn s (w s)
    refine ⟨q, Relation.ReflTransGen.head ?_ hrun⟩
    have hnext : (threads ++ [Prog.access l w next onFault])[threads.length]? =
        some (.access l w next onFault) := by simp
    have hstep : sys.Step admits ⟨s, threads ++ [.access l w next onFault]⟩ _ :=
      .proceed hnext (hadmits l s)
    simpa using hstep

end System

/-! ## Replaying a Run -/

/-- A choice of the next step. -/
inductive Move (ι ε : Type)
  | spawn (i : ι)
  | proceed (n : ℕ)
  | refuse (n : ℕ) (e : ε)
  /-- Let program `n` make its next access and lose the acknowledgement. -/
  | lose (n : ℕ) (e : ε)
  | crash (n : ℕ)

namespace System

variable (sys : System σ ι ℓ ε) (admits : ℓ → σ → Prop) [∀ i s, Decidable (sys.enabled i s)]
  [∀ l s, Decidable (admits l s)]

def play (c : Config σ ℓ ε) : Move ι ε → Option (Config σ ℓ ε)
  | .spawn i =>
      if sys.enabled i c.store then some ⟨c.store, c.threads ++ [sys.program i]⟩ else none
  | .proceed n =>
      match c.threads[n]? with
      | some (.access l w next _) =>
          if admits l c.store then some ⟨w c.store, c.threads.set n (next c.store)⟩ else none
      | _ => none
  | .refuse n e =>
      match c.threads[n]? with
      | some (.access _ _ _ onFault) => some ⟨c.store, c.threads.set n (onFault e)⟩
      | _ => none
  | .lose n e =>
      match c.threads[n]? with
      | some (.access l w _ onFault) =>
          if admits l c.store then some ⟨w c.store, c.threads.set n (onFault e)⟩ else none
      | _ => none
  | .crash n => some ⟨c.store, c.threads.eraseIdx n⟩

def playAll (c : Config σ ℓ ε) : List (Move ι ε) → Option (Config σ ℓ ε)
  | [] => some c
  | m :: ms => (sys.play admits c m).bind fun c' => playAll c' ms

variable {sys admits} {c : Config σ ℓ ε}

theorem step_of_play {c' : Config σ ℓ ε} {m : Move ι ε} (h : sys.play admits c m = some c') :
    sys.Step admits c c' := by
  cases m with
  | spawn i =>
    simp only [play, Option.ite_none_right_eq_some, Option.some.injEq] at h
    obtain ⟨hen, rfl⟩ := h
    exact .spawn i hen
  | proceed n =>
    simp only [play] at h
    split at h
    · next hn =>
      simp only [Option.ite_none_right_eq_some, Option.some.injEq] at h
      obtain ⟨ha, rfl⟩ := h
      exact .proceed hn ha
    · cases h
  | refuse n e =>
    simp only [play] at h
    split at h
    · next hn => cases h; exact .refuse e hn
    · cases h
  | lose n e =>
    simp only [play] at h
    split at h
    · next hn =>
      simp only [Option.ite_none_right_eq_some, Option.some.injEq] at h
      obtain ⟨ha, rfl⟩ := h
      exact .lose e hn ha
    · cases h
  | crash n =>
    cases h
    exact .crash n

variable {ms : List (Move ι ε)}

theorem run_of_playAll {c' : Config σ ℓ ε} (h : sys.playAll admits c ms = some c') :
    sys.Run admits c c' := by
  induction ms generalizing c with
  | nil =>
    cases h
    exact .refl
  | cons m ms ih =>
    rw [playAll, Option.bind_eq_some_iff] at h
    obtain ⟨c₁, hm, h⟩ := h
    exact (Relation.ReflTransGen.single (step_of_play hm)).trans (ih h)

theorem exists_run_of_playAll {f : σ → β} {b : β}
    (h : (sys.playAll admits c ms).map (fun c' => f c'.store) = some b) :
    ∃ c', sys.Run admits c c' ∧ f c'.store = b := by
  rw [Option.map_eq_some_iff] at h
  obtain ⟨c', hc', hb⟩ := h
  exact ⟨c', run_of_playAll hc', hb⟩

theorem exists_run_run_of_playAll {ms' : List (Move ι ε)} {f g : σ → β} {b b' : β}
    (h : (sys.playAll admits c ms).bind (fun c₁ => (sys.playAll admits c₁ ms').map fun c₂ =>
      (f c₁.store, g c₂.store)) = some (b, b')) :
    ∃ c₁ c₂, sys.Run admits c c₁ ∧ sys.Run admits c₁ c₂ ∧ f c₁.store = b ∧ g c₂.store = b' := by
  simp only [Option.bind_eq_some_iff, Option.map_eq_some_iff, Prod.mk.injEq] at h
  obtain ⟨c₁, h₁, c₂, h₂, hb, hb'⟩ := h
  exact ⟨c₁, c₂, run_of_playAll h₁, run_of_playAll h₂, hb, hb'⟩

theorem exists_run_step_of_playAll {m : Move ι ε} {f g : σ → β} {b b' : β}
    (h : (sys.playAll admits c ms).bind (fun c₁ => (sys.play admits c₁ m).map fun c₂ =>
      (f c₁.store, g c₂.store)) = some (b, b')) :
    ∃ c₁ c₂, sys.Run admits c c₁ ∧ sys.Step admits c₁ c₂ ∧ f c₁.store = b ∧ g c₂.store = b' := by
  simp only [Option.bind_eq_some_iff, Option.map_eq_some_iff, Prod.mk.injEq] at h
  obtain ⟨c₁, h₁, c₂, h₂, hb, hb'⟩ := h
  exact ⟨c₁, c₂, run_of_playAll h₁, step_of_play h₂, hb, hb'⟩

end System

end Concurrent
