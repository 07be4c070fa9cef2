import AudioBook.Pagination.SortKey

/-!
# The First Pages of a Listing

A client that follows the cursors for a limited number of pages, and keeps what it has.

- `walk`: the rows of the first pages.
- `walk_perm_iff`: they are all rows exactly when following the cursors gives every row, and the rows
  fit in so many pages.
-/

namespace Keyset

variable {α γ : Type*}

/-- The rows of the first `maxPages` pages from a cursor on, whether there are more or not. -/
def walk (pages : Option γ → Page α γ) : ℕ → Option γ → List α
  | 0, _ => []
  | maxPages + 1, cursor =>
      (pages cursor).data ++
        (pages cursor).nextCursor.elim [] fun next => walk pages maxPages (some next)

section walk

variable {pages : Option γ → Page α γ} {cursor : Option γ}

theorem walk_eq_of_follow {fuel n : ℕ} {out : List α} (h : follow pages fuel cursor = some out)
    (hle : fuel ≤ n) : walk pages n cursor = out := by
  induction fuel generalizing n cursor out with
  | zero => cases h
  | succ fuel ih =>
    obtain ⟨n, rfl⟩ := Nat.exists_eq_succ_of_ne_zero (Nat.ne_zero_of_lt hle)
    rw [follow] at h
    rw [walk]
    cases hnext : (pages cursor).nextCursor with
    | none =>
      rw [hnext] at h
      exact (List.append_nil _).trans (Option.some.inj h)
    | some next =>
      rw [hnext] at h
      obtain ⟨rest, hrest, rfl⟩ := Option.map_eq_some_iff.mp h
      rw [Option.elim_some, ih hrest (Nat.le_of_succ_le_succ hle)]

theorem walk_prefix {m n : ℕ} (hle : m ≤ n) : walk pages m cursor <+: walk pages n cursor := by
  induction m generalizing n cursor with
  | zero => exact List.nil_prefix
  | succ m ih =>
    obtain ⟨n, rfl⟩ := Nat.exists_eq_succ_of_ne_zero (Nat.ne_zero_of_lt hle)
    rw [walk, walk]
    refine (List.prefix_append_right_inj _).mpr ?_
    cases (pages cursor).nextCursor with
    | none => exact List.prefix_rfl
    | some next => exact ih (Nat.le_of_succ_le_succ hle)

end walk

section keyset

variable {κ : Type*} [Preorder κ] {limit : ℕ} {cursorOf : α → γ} {selects : γ → α → Bool}
  {rows : List α} {key : α → κ} {pages : Option γ → Page α γ}

theorem key_lt_of_mem_walk (hpages : pages = fetch limit cursorOf selects rows) (hpos : 0 < limit)
    (hselects : ∀ a ∈ rows, ∀ b ∈ rows, selects (cursorOf a) b = true → key a < key b) (n : ℕ)
    {a b : α} (ha : a ∈ rows) (hb : b ∈ walk pages n (some (cursorOf a))) : key a < key b := by
  induction n generalizing a with
  | zero => cases hb
  | succ n ih =>
    have hafter : ∀ x ∈ select selects rows (some (cursorOf a)), x ∈ rows ∧ key a < key x := by
      intro x hx
      obtain ⟨hx, hselected⟩ := List.mem_filter.mp hx
      exact ⟨hx, hselects a ha x hx hselected⟩
    rw [walk, hpages, fetch, ← hpages] at hb
    by_cases hlt : limit < (select selects rows (some (cursorOf a))).length
    · obtain ⟨init, row, rest, hsplit, -, -, hpage⟩ := paginate_of_lt cursorOf hpos hlt
      rw [hsplit] at hafter
      rw [hpage] at hb
      obtain hb | hb := List.mem_append.mp hb
      · refine (hafter b ?_).2
        rw [List.append_cons]
        exact List.mem_append_left _ hb
      · obtain ⟨hrow, hlt⟩ := hafter row (by simp)
        exact hlt.trans (ih hrow hb)
    · rw [paginate_of_le (Nat.not_lt.mp hlt)] at hb
      exact (hafter b (by simpa using hb)).2

/-- The pages end, or they are all full and a row is after them. -/
theorem follow_or_full (hpages : pages = fetch limit cursorOf selects rows) (hpos : 0 < limit)
    (hsorted : rows.Pairwise fun a b => key a < key b)
    (hselects : ∀ a ∈ rows, ∀ b ∈ rows, selects (cursorOf a) b = true → key a < key b) (n : ℕ)
    (cursor : Option γ) :
    follow pages n cursor = some (walk pages n cursor) ∧
        (walk pages n cursor).length ≤ n * limit ∨
      (walk pages n cursor).length = n * limit ∧
        (0 < n → ∃ b ∈ rows, ∀ a ∈ walk pages n cursor, key a < key b) := by
  induction n generalizing cursor with
  | zero => exact .inr ⟨(Nat.zero_mul _).symm, fun h => absurd h (lt_irrefl 0)⟩
  | succ n ih =>
    have hselect : (select selects rows cursor).Sublist rows := by
      cases cursor with
      | none => exact List.Sublist.refl _
      | some cursor => exact List.filter_sublist
    have hfetch : pages cursor = paginate limit cursorOf (select selects rows cursor) := by
      rw [hpages, fetch]
    rw [walk, follow, hfetch, Nat.succ_mul]
    by_cases hlt : limit < (select selects rows cursor).length
    · obtain ⟨init, row, rest, hsplit, hne, hlen, hpage⟩ := paginate_of_lt cursorOf hpos hlt
      obtain ⟨b, hb⟩ := List.exists_mem_of_ne_nil rest hne
      have hfull : (init ++ [row]).length = limit := by simpa using hlen
      have horder := hsorted.sublist hselect
      rw [hsplit, List.append_cons] at horder hselect
      obtain ⟨hinit, -, hbefore⟩ := List.pairwise_append.mp horder
      have hrow : row ∈ rows := hselect.subset (by simp)
      rw [hpage, Option.elim_some, List.length_append, hfull]
      obtain ⟨hend, hle⟩ | ⟨hlength, hmore⟩ := ih (some (cursorOf row))
      · refine .inl ⟨congrArg (Option.map _) hend, ?_⟩
        rw [Nat.add_comm]
        exact Nat.add_le_add_right hle _
      · refine .inr ⟨by rw [hlength, Nat.add_comm], fun _ => ?_⟩
        rcases n.eq_zero_or_pos with rfl | hn
        · refine ⟨b, hselect.subset (List.mem_append_right _ hb), fun a ha => ?_⟩
          exact hbefore a (by simpa [walk] using ha) b hb
        obtain ⟨c, hc, hafter⟩ := hmore hn
        -- The next page has a row, which is between this page and `c`.
        obtain ⟨y, hy⟩ := List.exists_mem_of_length_pos (hlength ▸ Nat.mul_pos hn hpos)
        have hlast := (key_lt_of_mem_walk hpages hpos hselects n hrow hy).trans (hafter y hy)
        refine ⟨c, hc, fun a ha => ?_⟩
        obtain ha | ha := List.mem_append.mp ha
        · obtain ha | ha := List.mem_append.mp ha
          · exact ((List.pairwise_append.mp hinit).2.2 a ha row List.mem_cons_self).trans hlast
          · exact List.mem_singleton.mp ha ▸ hlast
        · exact hafter a ha
    · rw [paginate_of_le (Nat.not_lt.mp hlt), Option.elim_none, List.append_nil]
      exact .inl ⟨rfl, (Nat.not_lt.mp hlt).trans (Nat.le_add_left _ _)⟩

theorem walk_perm_iff (hpages : pages = fetch limit cursorOf selects rows) (hpos : 0 < limit)
    (hsorted : rows.Pairwise fun a b => key a < key b)
    (hselects : ∀ a ∈ rows, ∀ b ∈ rows, selects (cursorOf a) b = true → key a < key b) {n : ℕ}
    (hn : 0 < n) :
    (walk pages n none).Perm rows ↔
      (∃ fuel out, follow pages fuel none = some out ∧ out.Perm rows) ∧ rows.length ≤ n * limit := by
  have hends := follow_or_full hpages hpos hsorted hselects n none
  constructor
  · intro hperm
    obtain ⟨hfollow, hle⟩ | ⟨-, hmore⟩ := hends
    · exact ⟨⟨n, _, hfollow, hperm⟩, hperm.length_eq ▸ hle⟩
    · obtain ⟨b, hb, hlast⟩ := hmore hn
      exact absurd (hlast b (hperm.mem_iff.mpr hb)) (lt_irrefl _)
  · rintro ⟨⟨fuel, out, hfollow, hperm⟩, hle⟩
    have hout := walk_eq_of_follow hfollow (le_max_left fuel n)
    obtain ⟨hend, -⟩ | ⟨hlength, -⟩ := hends
    · rwa [← walk_eq_of_follow hend (le_max_right fuel _), hout]
    · have hfront : walk pages n none <+: out := hout ▸ walk_prefix (le_max_right fuel n)
      rwa [hfront.eq_of_length_le (hperm.length_eq.trans_le (hle.trans hlength.ge))]

end keyset

end Keyset
