import Mathlib.Order.MinMax
import Mathlib.Data.List.Sort
import Mathlib.Tactic.Common

/-!
# Tilings by Half-Open Integer Intervals

A sweep over a sorted list of half-open intervals that keeps the furthest end it has seen, and
what it says about the positions that the intervals cover:

- `Chained c spans`: each interval starts at the furthest end before it, the first one at `c`;
- `Tiles c spans`: every position from `c` to the furthest end is covered once and no other
  position is, and an interval without positions lies on a boundary;
- `chained_iff_tiles`: the two are the same on a sorted list.

A range of natural numbers is cut into pieces that are not empty and follow each other without a gap:

- `Consecutive a b pieces`: the pieces cut the range from `a` to `b`;
- `Consecutive.flatMap`, `Consecutive.countP_eq_one`: the pieces can be cut again, and every number
  of the range lies in exactly one piece.
-/

namespace Intervals

/-- The half-open interval of the integers from `start` to `stop`, which has no position when
`stop ≤ start`. -/
structure Span where
  start : ℤ
  stop : ℤ
  deriving DecidableEq, Repr

namespace Span

/-- The interval has the position `x`. -/
def Contains (span : Span) (x : ℤ) : Prop := span.start ≤ x ∧ x < span.stop

instance (span : Span) (x : ℤ) : Decidable (span.Contains x) :=
  inferInstanceAs (Decidable (_ ∧ _))

/-- The interval has no position. -/
def Empty (span : Span) : Prop := span.stop ≤ span.start

instance (span : Span) : Decidable span.Empty := inferInstanceAs (Decidable (_ ≤ _))

/-- The lexicographic order of the pairs `(start, stop)`. -/
def Le (a b : Span) : Prop := a.start < b.start ∨ (a.start = b.start ∧ a.stop ≤ b.stop)

instance : DecidableRel Le := fun _ _ => inferInstanceAs (Decidable (_ ∨ _))

instance : IsTrans Span Le where
  trans a b c hab hbc := by
    unfold Le at *
    omega

instance : Std.Total Le where
  total a b := by
    unfold Le
    omega

end Span

def sort (spans : List Span) : List Span := spans.insertionSort Span.Le

theorem sort_perm (spans : List Span) : (sort spans).Perm spans :=
  List.perm_insertionSort Span.Le spans

theorem sort_pairwise (spans : List Span) : (sort spans).Pairwise Span.Le :=
  List.pairwise_insertionSort Span.Le spans

/-- The number of spans that have the position `x`. -/
def cover (spans : List Span) (x : ℤ) : ℕ := spans.countP fun span => decide (span.Contains x)

/-- The furthest end of the spans, or `c` if none lies beyond it. -/
def furthest (c : ℤ) : List Span → ℤ
  | [] => c
  | span :: spans => furthest (max c span.stop) spans

/-- Each span starts at the furthest end before it, the first one at `c`. -/
def Chained (c : ℤ) : List Span → Prop
  | [] => True
  | span :: spans => span.start = c ∧ Chained (max c span.stop) spans

/-- The spans tile the positions from `c` to their furthest end. -/
structure Tiles (c : ℤ) (spans : List Span) : Prop where
  /-- Every position from `c` to the furthest end is covered once, and no other position is. -/
  once : ∀ x, cover spans x = if c ≤ x ∧ x < furthest c spans then 1 else 0
  /-- A span without positions starts neither before `c` nor after the furthest end. -/
  within : ∀ span ∈ spans, span.Empty → c ≤ span.start ∧ span.start ≤ furthest c spans
  /-- A span without positions does not start inside another span. -/
  apart : ∀ span ∈ spans, span.Empty → ∀ other ∈ spans,
    ¬ (other.start < span.start ∧ span.start < other.stop)

section furthest

theorem le_furthest (c : ℤ) (spans : List Span) : c ≤ furthest c spans := by
  induction spans generalizing c with
  | nil => exact le_refl c
  | cons span spans ih => exact (le_max_left c span.stop).trans (ih _)

theorem furthest_le_iff {c m : ℤ} {spans : List Span} :
    furthest c spans ≤ m ↔ c ≤ m ∧ ∀ span ∈ spans, span.stop ≤ m := by
  induction spans generalizing c with
  | nil => simp [furthest]
  | cons span spans ih =>
      rw [furthest, ih, max_le_iff, List.forall_mem_cons, and_assoc]

theorem furthest_perm {c : ℤ} {spans spans' : List Span} (h : spans.Perm spans') :
    furthest c spans = furthest c spans' := by
  apply eq_of_forall_ge_iff
  intro m
  rw [furthest_le_iff, furthest_le_iff]
  simp only [h.mem_iff]

end furthest

section cover

theorem cover_cons (span : Span) (spans : List Span) (x : ℤ) :
    cover (span :: spans) x
      = cover spans x + if span.start ≤ x ∧ x < span.stop then 1 else 0 := by
  unfold cover
  rw [List.countP_cons]
  simp only [decide_eq_true_eq]
  rfl

theorem cover_perm {spans spans' : List Span} (h : spans.Perm spans') (x : ℤ) :
    cover spans x = cover spans' x :=
  h.countP_eq _

theorem exists_contains_of_cover_pos {spans : List Span} {x : ℤ} (h : 0 < cover spans x) :
    ∃ span ∈ spans, span.Contains x := by
  obtain ⟨span, hmem, hx⟩ := List.countP_pos_iff.mp h
  exact ⟨span, hmem, of_decide_eq_true hx⟩

end cover

variable {spans : List Span} {c : ℤ}

theorem Tiles.perm {spans' : List Span} (h : spans.Perm spans') (ht : Tiles c spans) :
    Tiles c spans' where
  once x := by rw [← cover_perm h, ← furthest_perm h]; exact ht.once x
  within span hmem := by rw [← furthest_perm h]; exact ht.within span (h.mem_iff.mpr hmem)
  apart span hmem hempty other hother :=
    ht.apart span (h.mem_iff.mpr hmem) hempty other (h.mem_iff.mpr hother)

theorem Tiles.bounds (ht : Tiles c spans) {span : Span} (hmem : span ∈ spans) {x : ℤ}
    (hx : span.Contains x) : c ≤ x ∧ x < furthest c spans := by
  by_contra hout
  have hcover := ht.once x
  rw [if_neg hout] at hcover
  have hpos : 0 < cover spans x := List.countP_pos_iff.mpr ⟨span, hmem, decide_eq_true hx⟩
  omega

theorem Tiles.start_eq {span : Span} (hle : ∀ other ∈ spans, span.Le other)
    (ht : Tiles c (span :: spans)) : span.start = c := by
  have hmem : span ∈ span :: spans := List.mem_cons_self
  -- with or without positions, `span` starts between `c` and the furthest end
  have hrange : c ≤ span.start ∧ span.start ≤ furthest c (span :: spans) := by
    by_cases hempty : span.Empty
    · exact ht.within span hmem hempty
    · have hx : span.Contains span.start := ⟨le_refl _, not_le.mp hempty⟩
      obtain ⟨hc, hlt⟩ := ht.bounds hmem hx
      exact ⟨hc, hlt.le⟩
  by_contra hne
  -- otherwise the position `c` is covered by a span that starts before the least one
  have hcover := ht.once c
  rw [if_pos (by omega)] at hcover
  have hpos : 0 < cover (span :: spans) c := by omega
  obtain ⟨other, hother, hstart, -⟩ := exists_contains_of_cover_pos hpos
  rcases List.mem_cons.mp hother with rfl | hother
  · omega
  · have h := hle other hother
    unfold Span.Le at h
    omega

theorem tiles_cons_iff {span : Span} (hle : ∀ other ∈ spans, span.Le other) :
    Tiles c (span :: spans) ↔ span.start = c ∧ Tiles (max c span.stop) spans := by
  have hfurthest : furthest c (span :: spans) = furthest (max c span.stop) spans := rfl
  have hge := le_furthest (max c span.stop) spans
  constructor
  · intro ht
    have hstart := ht.start_eq hle
    refine ⟨hstart, ⟨fun x => ?_, fun other hother hempty => ?_, fun other hother hempty b hb => ?_⟩⟩
    · have h := ht.once x
      rw [cover_cons, hfurthest] at h
      split_ifs at h ⊢ <;> omega
    · obtain ⟨hc, hend⟩ := ht.within other (List.mem_cons_of_mem _ hother) hempty
      have happart := ht.apart other (List.mem_cons_of_mem _ hother) hempty span List.mem_cons_self
      have h := hle other hother
      rw [hfurthest] at hend
      unfold Span.Le at h
      unfold Span.Empty at hempty
      omega
    · exact ht.apart other (List.mem_cons_of_mem _ hother) hempty b (List.mem_cons_of_mem _ hb)
  · rintro ⟨hstart, ht⟩
    refine ⟨fun x => ?_, fun other hother hempty => ?_, fun other hother hempty b hb => ?_⟩
    · rw [cover_cons, hfurthest, ht.once x]
      split_ifs <;> omega
    · rw [hfurthest]
      rcases List.mem_cons.mp hother with rfl | hother
      · omega
      · have h := ht.within other hother hempty
        omega
    · rcases List.mem_cons.mp hother with rfl | hother'
      · -- no span starts before the least one
        rcases List.mem_cons.mp hb with rfl | hb
        · omega
        · have h := hle b hb
          unfold Span.Le at h
          omega
      · rcases List.mem_cons.mp hb with rfl | hb
        · have h := ht.within other hother' hempty
          omega
        · exact ht.apart other hother' hempty b hb

theorem chained_iff_tiles (hsorted : spans.Pairwise Span.Le) : Chained c spans ↔ Tiles c spans := by
  induction spans generalizing c with
  | nil =>
      refine ⟨fun _ => ⟨fun x => ?_, by simp, by simp⟩, fun _ => trivial⟩
      have hout : ¬ (c ≤ x ∧ x < furthest c []) := by simp [furthest]
      rw [if_neg hout]
      rfl
  | cons span spans ih =>
      rw [List.pairwise_cons] at hsorted
      rw [Chained, ih hsorted.2, tiles_cons_iff hsorted.1]

theorem chained_sort_iff_tiles : Chained c (sort spans) ↔ Tiles c spans := by
  rw [chained_iff_tiles (sort_pairwise spans)]
  exact ⟨Tiles.perm (sort_perm spans), Tiles.perm (sort_perm spans).symm⟩

/-! ## Consecutive Pieces -/

/-- The pieces cut the range from `a` to `b`, in order. -/
def Consecutive (a b : ℕ) : List (ℕ × ℕ) → Prop
  | [] => a = b
  | (start, stop) :: pieces => start = a ∧ a < stop ∧ Consecutive stop b pieces

namespace Consecutive

variable {a b c : ℕ} {pieces pieces' : List (ℕ × ℕ)}

theorem le (h : Consecutive a b pieces) : a ≤ b := by
  induction pieces generalizing a with
  | nil => exact Nat.le_of_eq h
  | cons piece pieces ih =>
      obtain ⟨-, hlt, hrest⟩ := h
      have hle := ih hrest
      omega

theorem append (h : Consecutive a b pieces) (h' : Consecutive b c pieces') :
    Consecutive a c (pieces ++ pieces') := by
  induction pieces generalizing a with
  | nil =>
      obtain rfl : a = b := h
      exact h'
  | cons piece pieces ih => exact ⟨h.1, h.2.1, ih h.2.2⟩

theorem flatMap {f : ℕ × ℕ → List (ℕ × ℕ)} (h : Consecutive a b pieces)
    (hf : ∀ piece ∈ pieces, Consecutive piece.1 piece.2 (f piece)) :
    Consecutive a b (pieces.flatMap f) := by
  induction pieces generalizing a with
  | nil => exact h
  | cons piece pieces ih =>
      obtain ⟨rfl, hlt, hrest⟩ := h
      rw [List.flatMap_cons]
      exact (hf _ List.mem_cons_self).append
        (ih hrest fun piece' hmem => hf piece' (List.mem_cons_of_mem _ hmem))

theorem bounds (h : Consecutive a b pieces) {piece : ℕ × ℕ} (hmem : piece ∈ pieces) :
    a ≤ piece.1 ∧ piece.1 < piece.2 ∧ piece.2 ≤ b := by
  induction pieces generalizing a with
  | nil => cases hmem
  | cons first pieces ih =>
      obtain ⟨rfl, hlt, hrest⟩ := h
      have hle := hrest.le
      rcases List.mem_cons.mp hmem with rfl | hmem
      · exact ⟨le_refl _, hlt, hle⟩
      · obtain ⟨hstart, hpiece, hstop⟩ := ih hrest hmem
        exact ⟨by omega, hpiece, hstop⟩

theorem stop_eq_or_exists (h : Consecutive a b pieces) {piece : ℕ × ℕ} (hmem : piece ∈ pieces) :
    piece.2 = b ∨ ∃ next ∈ pieces, next.1 = piece.2 := by
  induction pieces generalizing a with
  | nil => cases hmem
  | cons first pieces ih =>
      obtain ⟨-, -, hrest⟩ := h
      rcases List.mem_cons.mp hmem with rfl | hmem
      · cases pieces with
        | nil => exact .inl hrest
        | cons second pieces => exact .inr ⟨second, by simp, hrest.1⟩
      · obtain hstop | ⟨next, hnext, hstart⟩ := ih hrest hmem
        · exact .inl hstop
        · exact .inr ⟨next, List.mem_cons_of_mem _ hnext, hstart⟩

theorem filter_eq (h : Consecutive a b pieces) :
    (pieces.filter fun piece => decide (piece.1 < piece.2)) = pieces := by
  rw [List.filter_eq_self]
  intro piece hmem
  exact decide_eq_true (h.bounds hmem).2.1

theorem pairwise (h : Consecutive a b pieces) :
    pieces.Pairwise fun piece later => piece.2 ≤ later.1 := by
  induction pieces generalizing a with
  | nil => exact .nil
  | cons piece pieces ih =>
      obtain ⟨-, -, hrest⟩ := h
      exact .cons (fun later hmem => (hrest.bounds hmem).1) (ih hrest)

theorem countP_eq_one (h : Consecutive a b pieces) {i : ℕ} (ha : a ≤ i) (hb : i < b) :
    (pieces.countP fun piece => decide (piece.1 ≤ i ∧ i < piece.2)) = 1 := by
  induction pieces generalizing a with
  | nil =>
      obtain rfl : a = b := h
      omega
  | cons piece pieces ih =>
      obtain ⟨rfl, hlt, hrest⟩ := h
      rw [List.countP_cons]
      by_cases hi : i < piece.2
      · -- `i` is in the first piece; the others start after it
        have hnone : (pieces.countP fun piece => decide (piece.1 ≤ i ∧ i < piece.2)) = 0 := by
          rw [List.countP_eq_zero]
          intro later hmem
          have hstart := (hrest.bounds hmem).1
          simp only [decide_eq_true_eq]
          omega
        rw [hnone, if_pos (by simp [ha, hi])]
      · rw [ih hrest (by omega), if_neg (by simp [hi])]

end Consecutive

end Intervals
