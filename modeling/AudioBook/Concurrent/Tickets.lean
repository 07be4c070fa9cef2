import Mathlib.Order.Interval.Finset.Nat

/-!
# Tickets From a Counter

A counter hands out the numbers from one on, and a list of holders keep what they got. As long as no
number is handed out twice, at most `limit` holders have a number up to `limit`.

Main results:

- `length_filter_le_of_tickets`: the bound.
- `flatMap_set_perm`: one holder gets one more number.
- `length_flatMap_le_length_filter`: holders of one number at most are as many as the numbers.
-/

namespace Concurrent

variable {α β : Type}

theorem flatMap_set_perm {l : List α} {i : ℕ} {a a' : α} {v : List β} (f : α → List β)
    (hi : l[i]? = some a) (hf : f a' = f a ++ v) :
    ((l.set i a').flatMap f).Perm (v ++ l.flatMap f) := by
  induction l generalizing i with
  | nil => simp at hi
  | cons b l ih =>
    cases i with
    | zero =>
      obtain rfl : b = a := by simpa using hi
      rw [List.set_cons_zero, List.flatMap_cons, List.flatMap_cons, hf, ← List.append_assoc]
      exact List.perm_append_comm.append_right _
    | succ i =>
      rw [List.set_cons_succ, List.flatMap_cons, List.flatMap_cons]
      refine ((ih (by simpa using hi)).append_left (f b)).trans ?_
      rw [← List.append_assoc, ← List.append_assoc]
      exact List.perm_append_comm.append_right _

theorem length_filter_le_length_flatMap {l : List α} {f : α → List β} {p : α → Bool}
    (h : ∀ a ∈ l, p a → f a ≠ []) : (l.filter p).length ≤ (l.flatMap f).length := by
  induction l with
  | nil => simp
  | cons a l ih =>
    have hl := ih fun b hb => h b (List.mem_cons_of_mem a hb)
    rw [List.flatMap_cons, List.length_append, List.filter_cons]
    split
    · have ha := List.length_pos_of_ne_nil (h a List.mem_cons_self ‹_›)
      rw [List.length_cons]
      omega
    · omega

theorem length_flatMap_le_length_filter {l : List α} {f : α → List β} {p : α → Bool}
    (hone : ∀ a ∈ l, (f a).length ≤ 1) (h : ∀ a ∈ l, f a ≠ [] → p a) :
    (l.flatMap f).length ≤ (l.filter p).length := by
  induction l with
  | nil => simp
  | cons a l ih =>
    have hl := ih (fun b hb => hone b (List.mem_cons_of_mem a hb))
      fun b hb => h b (List.mem_cons_of_mem a hb)
    have ha := hone a List.mem_cons_self
    rw [List.flatMap_cons, List.length_append, List.filter_cons]
    split
    · rw [List.length_cons]
      omega
    · have hnil : f a = [] := by
        by_contra hne
        exact ‹¬ _› (h a List.mem_cons_self hne)
      rw [hnil, List.length_nil]
      omega

theorem length_filter_le_add {p q r : α → Bool} (h : ∀ a, p a → q a ∨ r a) (l : List α) :
    (l.filter p).length ≤ (l.filter q).length + (l.filter r).length := by
  induction l with
  | nil => simp
  | cons a l ih =>
    have ha := h a
    simp only [List.filter_cons]
    split_ifs <;> simp_all <;> omega

theorem length_filter_le_of_tickets {l : List α} {tickets : α → List ℕ} {p : α → Bool} {limit : ℕ}
    (hnodup : (l.flatMap tickets).Nodup) (hpos : ∀ n ∈ l.flatMap tickets, 0 < n)
    (h : ∀ a ∈ l, p a → ∃ n ∈ tickets a, n ≤ limit) : (l.filter p).length ≤ limit := by
  have hheld : (l.filter p).length ≤
      (l.flatMap fun a => (tickets a).filter (· ≤ limit)).length := by
    refine length_filter_le_length_flatMap fun a ha hp => ?_
    obtain ⟨n, hn, hle⟩ := h a ha hp
    exact List.ne_nil_of_mem (List.mem_filter.mpr ⟨hn, by simpa using hle⟩)
  refine hheld.trans ?_
  -- The small numbers are distinct and lie between one and the limit.
  rw [← List.filter_flatMap, ← List.toFinset_card_of_nodup (hnodup.filter _)]
  calc _ ≤ (Finset.Icc 1 limit).card := Finset.card_le_card fun n hn => by
        simp only [List.mem_toFinset, List.mem_filter, decide_eq_true_eq] at hn
        exact Finset.mem_Icc.mpr ⟨hpos n hn.1, hn.2⟩
    _ = limit := by simp

end Concurrent
