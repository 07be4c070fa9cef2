import Mathlib.Data.List.DropRight

/-!
# Boundaries in Lists

A property of lists that is decided piece by piece: an element may separate what stands before it
from what stands behind. Replacing such elements, or leaving some of them out, does not change
whether the property holds.

Main results:

- `sameAfter_map`, `dropWhile_iff`, `rdropWhile_iff`: the list functions that keep the pieces.
-/

namespace Boundaries

variable {α : Type*} {P : List α → Prop} {c d : α} {s t t' : List α}

/-- A list has the property if what stands before the element and behind it has. -/
def Isolated (P : List α → Prop) (c : α) : Prop := ∀ s t, P (s ++ c :: t) ↔ P s ∧ P t

/-- A list has the property if what stands before the element has, and the rest from it on. -/
def Starts (P : List α → Prop) (c : α) : Prop := ∀ s t, P (s ++ c :: t) ↔ P s ∧ P (c :: t)

/-- Behind every list, the two lists are alike. -/
def SameAfter (P : List α → Prop) (t t' : List α) : Prop := ∀ s, P (s ++ t) ↔ P (s ++ t')

theorem Isolated.cons_iff (hnil : P []) (hc : Isolated P c) : P (c :: t) ↔ P t := by
  rw [← List.nil_append (c :: t), hc [] t]
  exact and_iff_right hnil

theorem Isolated.starts (hnil : P []) (hc : Isolated P c) : Starts P c := by
  intro s t
  rw [hc s t, hc.cons_iff hnil]

theorem SameAfter.refl (t : List α) : SameAfter P t t := fun _ => Iff.rfl

theorem SameAfter.iff (h : SameAfter P t t') : P t ↔ P t' := h []

theorem SameAfter.cons (h : SameAfter P t t') (c : α) : SameAfter P (c :: t) (c :: t') := by
  intro s
  rw [List.append_cons s c t, List.append_cons s c t']
  exact h (s ++ [c])

theorem Starts.sameAfter (hc : Starts P c) (hd : Isolated P d) (h : P (c :: t) ↔ P t') :
    SameAfter P (c :: t) (d :: t') := by
  intro s
  rw [hc s t, hd s t', h]

theorem Isolated.sameAfter (hnil : P []) (hc : Isolated P c) (hd : Isolated P d) (h : P t ↔ P t') :
    SameAfter P (c :: t) (d :: t') :=
  (hc.starts hnil).sameAfter hd ((hc.cons_iff hnil).trans h)

theorem sameAfter_map (hnil : P []) {f : α → α}
    (hf : ∀ c ∈ t, f c = c ∨ Isolated P (f c) ∧ Isolated P c) : SameAfter P (t.map f) t := by
  induction t with
  | nil => exact .refl []
  | cons c t ih =>
    have hrest := ih fun d hd => hf d (List.mem_cons_of_mem c hd)
    rcases hf c List.mem_cons_self with hsame | ⟨hnew, hold⟩
    · rw [List.map_cons, hsame]
      exact hrest.cons c
    · exact hnew.sameAfter hnil hold hrest.iff

theorem dropWhile_iff (hnil : P []) {p : α → Bool} (hp : ∀ c ∈ t, p c = true → Isolated P c) :
    P (t.dropWhile p) ↔ P t := by
  induction t with
  | nil => rfl
  | cons c t ih =>
    by_cases hc : p c = true
    · rw [List.dropWhile_cons_of_pos hc, ih fun d hd => hp d (List.mem_cons_of_mem c hd),
        (hp c List.mem_cons_self hc).cons_iff hnil]
    · rw [List.dropWhile_cons_of_neg hc]

theorem rdropWhile_iff (hnil : P []) {p : α → Bool} (hp : ∀ c ∈ t, p c = true → Isolated P c) :
    P (t.rdropWhile p) ↔ P t := by
  induction t using List.reverseRecOn with
  | nil => rfl
  | append_singleton t c ih =>
    -- nothing stands behind the last element, so it separates off the empty list
    by_cases hc : p c = true
    · rw [List.rdropWhile_concat_pos p t c hc,
        ih fun d hd => hp d (List.mem_append_left [c] hd), hp c (by simp) hc t []]
      exact (and_iff_left hnil).symm
    · rw [List.rdropWhile_concat_neg p t c hc]

end Boundaries
