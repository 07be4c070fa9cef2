import AudioBook.Concurrent.Contract

/-!
# Triples of Interleaved Programs

A triple says what a program of a system knows where it starts and where it ends, while every
program of the system keeps a contract. What a program knows has to be stable to outlive the
accesses of the others; each rule asks for that where it is needed.

Main results:

- `Contract.Triple.bind`, `Contract.Triple.tryCatch`, `Contract.triple_read` and
  `Contract.triple_atomically`: one rule for each way to make a program.
- `Contract.Triple.relabel`: a triple of the program alone is one of the relabelled program.
-/

namespace Concurrent

variable {σ ℓ ℓ' ε ε' α β : Type}

namespace Contract

/-- From a store with `F` the program keeps the contract, and where it ends its result and the
store satisfy `G`. -/
def Triple (K : Contract σ ℓ) (F : σ → Prop) (p : Prog σ ℓ ε α) (G : α → σ → Prop) : Prop :=
  ∀ s, F s → K.wp p G (fun _ _ => True) s

variable {K : Contract σ ℓ} {F F' : σ → Prop} {G G' : α → σ → Prop} {H : β → σ → Prop}
  {p : Prog σ ℓ ε α}

theorem Triple.safe (h : K.Triple F p G) {s : σ} (hs : F s) : K.Safe p s :=
  wp_mono (fun _ _ _ => trivial) (fun _ _ _ => trivial) (h s hs)

theorem Triple.mono (h : K.Triple F p G) (hF : ∀ s, F' s → F s)
    (hG : ∀ a s, G a s → G' a s) : K.Triple F' p G' :=
  fun s hs => wp_mono hG (fun _ _ _ => trivial) (h s (hF s hs))

theorem Triple.forget (h : K.Triple F p G) : K.Triple F p fun _ _ => True :=
  h.mono (fun _ hs => hs) fun _ _ _ => trivial

theorem triple_pure {a : α} (h : ∀ s, F s → G a s) :
    K.Triple F (pure a : Prog σ ℓ ε α) G :=
  h

theorem triple_throw {e : ε} : K.Triple F (throw e : Prog σ ℓ ε α) G :=
  fun _ _ => trivial

theorem Triple.bind {f : α → Prog σ ℓ ε β} (hp : K.Triple F p G)
    (hf : ∀ a, K.Triple (G a) (f a) H) : K.Triple F (p >>= f) H :=
  fun s hs => wp_bind.mpr (wp_mono (fun a s' h => hf a s' h) (fun _ _ _ => trivial) (hp s hs))

theorem Triple.frame (hF : K.Stable F) (hp : K.Triple F p G) :
    K.Triple F p fun a s => G a s ∧ F s :=
  fun s hs => wp_mono (fun _ _ h => h) (fun _ _ _ => trivial) (wp_frame hF hs (hp s hs))

theorem Triple.tryCatch {handler : ε → Prog σ ℓ ε α} (hF : K.Stable F) (hp : K.Triple F p G)
    (hh : ∀ e, K.Triple F (handler e) G) : K.Triple F (tryCatchThe ε p handler) G :=
  fun s hs => wp_tryCatch.mpr
    (wp_mono (fun _ _ h => h.1) (fun e s' h => hh e s' h.2) (wp_frame hF hs (hp s hs)))

theorem triple_read {l : ℓ} {f : σ → α} (hF : K.Stable F) (h : ∀ s, F s → G (f s) s) :
    K.Triple F (Prog.read l f : Prog σ ℓ ε α) G :=
  fun _ hs => wp_read (fun _ _ _ => trivial) fun s' hs' _ => h s' (hF _ s' hs' hs)

theorem triple_atomically {l : ℓ} {t : StateT σ (Except ε) α} (hF : K.Stable F)
    (h : ∀ s a s', F s → K.admits l s → t s = .ok (a, s') → K.evolves s s' ∧ G a s') :
    K.Triple F (Prog.atomically l t : Prog σ ℓ ε α) G :=
  fun _ hs => wp_atomically (fun _ _ _ => trivial) fun s' a s'' hs' ha ht =>
    h s' a s'' (hF _ s' hs' hs) ha ht

theorem triple_access {l : ℓ} {w : σ → σ} {f : σ → α} (hF : K.Stable F)
    (h : ∀ s, F s → K.admits l s → K.evolves s (w s) ∧ G (f s) (w s)) :
    K.Triple F (.access l w (fun s => .ret (f s)) .raise : Prog σ ℓ ε α) G := by
  intro s hs s' hs'
  refine ⟨fun ha => ?_, fun _ => trivial⟩
  obtain ⟨hw, hg⟩ := h s' (hF s s' hs' hs) ha
  exact ⟨hw, hg, fun _ => trivial⟩

end Contract

/-! ## Programs of Different Kinds -/

namespace Prog

/-- A program among the programs of a system with labels `ℓ'` and exceptions `ε'`. -/
def relabel (label : ℓ → ℓ') (up : ε → ε') (down : ε' → ε) : Prog σ ℓ ε α → Prog σ ℓ' ε' α
  | ret a => ret a
  | raise e => raise (up e)
  | access l w next onFault =>
      access (label l) w (fun s => relabel label up down (next s)) fun e =>
        relabel label up down (onFault (down e))

/-- A program over the part of the store that `get` reads and `set` replaces. -/
def onPart {τ : Type} (label : ℓ → ℓ') (get : σ → τ) (set : τ → σ → σ) :
    Prog τ ℓ ε α → Prog σ ℓ' ε α
  | ret a => ret a
  | raise e => raise e
  | access l w next onFault =>
      access (label l) (fun s => set (w (get s)) s)
        (fun s => onPart label get set (next (get s))) fun e => onPart label get set (onFault e)

end Prog

namespace Contract

/-- A contract, as the programs see it whose labels are mapped by `label`. -/
def comap (label : ℓ → ℓ') (K : Contract σ ℓ') : Contract σ ℓ where
  admits l s := K.admits (label l) s
  evolves := K.evolves
  refl := K.refl
  trans := K.trans

theorem Triple.relabel {K : Contract σ ℓ'} {label : ℓ → ℓ'} {up : ε → ε'} {down : ε' → ε}
    {F : σ → Prop} {p : Prog σ ℓ ε α} {G : α → σ → Prop} (h : (K.comap label).Triple F p G) :
    K.Triple F (p.relabel label up down) G := by
  intro s hs
  have hp := h s hs
  clear h hs
  induction p generalizing s with
  | ret a => exact hp
  | raise e => trivial
  | access l w next onFault ihn ihf =>
    intro s' hs'
    obtain ⟨hdone, hrefused⟩ := hp s' hs'
    refine ⟨fun ha => ?_, fun e => ihf (down e) s' (hrefused (down e))⟩
    obtain ⟨hw, hnext, hlost⟩ := hdone ha
    exact ⟨hw, ihn s' (w s') hnext, fun e => ihf (down e) (w s') (hlost (down e))⟩

end Contract

end Concurrent
