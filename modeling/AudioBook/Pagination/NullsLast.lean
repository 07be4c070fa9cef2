import AudioBook.Pagination.SortKey

/-!
# Pagination With Nulls Last

A listing of the rows that have a rank, in order, and after them of those that have none, by their
id. The cursor of a row without a rank selects the rows after it. The cursor of a row with one
selects the rows with a rank after it, but of the rows without one only those of greater id: an end
of them, not all.

- `NullsLast`: what the cursors of such a listing select.
- `NullsLast.Resumes`: nothing is left out at the last page that ends with a rank.
- `NullsLast.follow_perm_iff`: following the cursors gives every row once exactly then.
-/

namespace Keyset

variable {α γ : Type*}

theorem follow_unique {fetch : Option γ → Page α γ} {fuel fuel' : ℕ} {cursor : Option γ}
    {out out' : List α} (h : follow fetch fuel cursor = some out)
    (h' : follow fetch fuel' cursor = some out') : out = out' := by
  induction fuel generalizing fuel' cursor out out' with
  | zero => cases h
  | succ fuel ih =>
      cases fuel' with
      | zero => cases h'
      | succ fuel' =>
          rw [follow] at h h'
          cases hnext : (fetch cursor).nextCursor with
          | none =>
              rw [hnext] at h h'
              exact Option.some.inj (h.symm.trans h')
          | some next =>
              rw [hnext] at h h'
              obtain ⟨rest, hrest, rfl⟩ := Option.map_eq_some_iff.mp h
              obtain ⟨rest', hrest', rfl⟩ := Option.map_eq_some_iff.mp h'
              rw [ih hrest hrest']

theorem filter_suffix_of_pairwise {p : α → Bool} {rows : List α}
    (h : rows.Pairwise fun a b => p a = true → p b = true) : rows.filter p <:+ rows := by
  induction rows with
  | nil => exact List.suffix_rfl
  | cons row rows ih =>
      rw [List.pairwise_cons] at h
      by_cases hrow : p row = true
      · have hall : ∀ x ∈ row :: rows, p x = true := by
          intro x hx
          rcases List.mem_cons.mp hx with rfl | hx
          · exact hrow
          · exact h.1 x hx hrow
        simp only [List.filter_eq_self.mpr hall, List.suffix_rfl]
      · rw [List.filter_cons_of_neg hrow]
        exact (ih h.2).trans (List.suffix_cons row rows)

/-- The rows with a rank, `ranked`, and those without one, `unranked`, in a listing. -/
structure NullsLast (cursorOf : α → γ) (selects : γ → α → Bool) (ranked unranked : List α) :
    Prop where
  ranked_of_ranked : ∀ front row rest, ranked = front ++ row :: rest →
    ranked.filter (selects (cursorOf row)) = rest
  unranked_of_ranked : ∀ row ∈ ranked, unranked.filter (selects (cursorOf row)) <:+ unranked
  ranked_of_unranked : ∀ row ∈ unranked, ranked.filter (selects (cursorOf row)) = []
  unranked_of_unranked : ∀ front row rest, unranked = front ++ row :: rest →
    unranked.filter (selects (cursorOf row)) = rest

namespace NullsLast

/-- All rows without a rank are read after those with one, `left` of which are left to read, with
`selected` selected without a rank. They are selected by the last row with a rank that ends a page,
and where that row is the last one with a rank, the page before has a row without one to announce
it. -/
def Resumes (limit : ℕ) (cursorOf : α → γ) (selects : γ → α → Bool) (unranked left selected : List α) :
    Prop :=
  unranked = [] ∨ (left.length < limit ∧ selected = unranked) ∨
    (limit ≤ left.length ∧
      (∀ last, left[limit * (left.length / limit) - 1]? = some last →
        unranked.filter (selects (cursorOf last)) = unranked) ∧
      (left.length = limit → selected ≠ []) ∧
      (limit < left.length → limit ∣ left.length → ∀ before,
        left[left.length - limit - 1]? = some before →
          unranked.filter (selects (cursorOf before)) ≠ []))

variable {limit : ℕ} {cursorOf : α → γ} {selects : γ → α → Bool} {ranked unranked : List α}

theorem select_ranked (h : NullsLast cursorOf selects ranked unranked) {front rest : List α}
    {row : α} (hranked : ranked = front ++ row :: rest) :
    select selects (ranked ++ unranked) (some (cursorOf row)) =
      rest ++ unranked.filter (selects (cursorOf row)) := by
  show (ranked ++ unranked).filter _ = _
  rw [List.filter_append, h.ranked_of_ranked front row rest hranked]

theorem select_unranked (h : NullsLast cursorOf selects ranked unranked) {front rest : List α}
    {row : α} (hunranked : unranked = front ++ row :: rest) :
    select selects (ranked ++ unranked) (some (cursorOf row)) = rest := by
  have hmem : row ∈ unranked := by
    rw [hunranked]
    simp
  show (ranked ++ unranked).filter _ = _
  rw [List.filter_append, h.ranked_of_unranked row hmem, h.unranked_of_unranked _ _ _ hunranked,
    List.nil_append]

theorem exists_follow_of_suffix (h : NullsLast cursorOf selects ranked unranked) (hpos : 0 < limit)
    {rest : List α} (hsuffix : rest <:+ unranked) {cursor : Option γ}
    (hselect : select selects (ranked ++ unranked) cursor = rest) :
    ∃ fuel, follow (fetch limit cursorOf selects (ranked ++ unranked)) fuel cursor = some rest := by
  induction hn : rest.length using Nat.strongRecOn generalizing rest cursor with
  | ind n ih =>
      by_cases hlt : limit < rest.length
      · obtain ⟨init, row, rest', hsplit, -, -, hpage⟩ := paginate_of_lt cursorOf hpos hlt
        have hfetch : fetch limit cursorOf selects (ranked ++ unranked) cursor =
            ⟨init ++ [row], some (cursorOf row)⟩ := by
          unfold fetch
          rw [hselect, hpage]
        obtain ⟨front, hfront⟩ := hsuffix
        have hunranked : unranked = (front ++ init) ++ row :: rest' := by
          rw [← hfront, hsplit, List.append_assoc]
        obtain ⟨fuel, hfuel⟩ := ih rest'.length
          (by rw [← hn, hsplit, List.length_append, List.length_cons]; omega)
          ⟨front ++ init ++ [row], by rw [hunranked]; simp⟩ (h.select_unranked hunranked) rfl
        refine ⟨fuel + 1, ?_⟩
        rw [hsplit, follow_succ_of_lt hfetch]
        exact hfuel
      · refine ⟨1, ?_⟩
        have hfetch : fetch limit cursorOf selects (ranked ++ unranked) cursor = ⟨rest, none⟩ := by
          unfold fetch
          rw [hselect, paginate_of_le (Nat.not_lt.mp hlt)]
        rw [follow, hfetch]

theorem resumes_page_iff {init rest selected : List α} {row : α} (hlen : init.length + 1 = limit)
    (hmore : rest ≠ [] ∨ selected ≠ []) :
    Resumes limit cursorOf selects unranked (init ++ row :: rest) selected ↔
      Resumes limit cursorOf selects unranked rest (unranked.filter (selects (cursorOf row))) := by
  have hpage : (init ++ [row]).length = limit := by
    rw [List.length_append, List.length_singleton, hlen]
  have hall : init ++ row :: rest = (init ++ [row]) ++ rest := by simp
  have hlength : (init ++ row :: rest).length = limit + rest.length := by
    rw [hall, List.length_append, hpage]
  have hpos : 0 < limit := by omega
  have hshift : ∀ i, (init ++ row :: rest)[limit + i]? = rest[i]? := by
    intro i
    rw [hall, List.getElem?_append_right (by omega), hpage, Nat.add_sub_cancel_left]
  have hrow : (init ++ row :: rest)[limit - 1]? = some row := by
    rw [← hlen, Nat.add_sub_cancel]
    simp
  have hdiv : (limit + rest.length) / limit = rest.length / limit + 1 := by
    rw [Nat.add_div_left _ hpos]
  unfold Resumes
  rw [hlength, hdiv]
  refine or_congr_right ?_
  rw [or_iff_right (by omega)]
  by_cases hlt : rest.length < limit
  · -- `row` ends the last page of rows with a rank
    have hnot : ¬ limit ≤ rest.length := by omega
    have hindex : limit * (rest.length / limit + 1) - 1 = limit - 1 := by
      rw [Nat.div_eq_of_lt hlt, Nat.zero_add, Nat.mul_one]
    rw [hindex, hrow]
    simp only [hnot, false_and, or_false, Option.some.injEq, forall_eq']
    rw [and_iff_right hlt, and_iff_right (Nat.le_add_right _ _)]
    refine and_iff_left ⟨fun heq => ?_, fun hgt hdvd => ?_⟩
    · have hnil : rest = [] := List.length_eq_zero_iff.mp (by omega)
      exact hmore.resolve_left (fun hne => hne hnil)
    · have hdvd' : limit ∣ rest.length := (Nat.dvd_add_right (Nat.dvd_refl limit)).mp hdvd
      have hle := Nat.le_of_dvd (by omega) hdvd'
      omega
  · have hle : limit ≤ rest.length := Nat.not_lt.mp hlt
    have hone : 1 ≤ rest.length / limit := (Nat.one_le_div_iff hpos).mpr hle
    have hmul : limit * 1 ≤ limit * (rest.length / limit) := Nat.mul_le_mul_left _ hone
    have hindex : limit * (rest.length / limit + 1) - 1 =
        limit + (limit * (rest.length / limit) - 1) := by
      rw [Nat.mul_add, Nat.mul_one]
      omega
    have hbefore : limit + rest.length - limit - 1 = rest.length - 1 := by omega
    rw [hindex, hshift]
    simp only [hlt, false_and, false_or]
    rw [and_iff_right hle, and_iff_right (Nat.le_add_right _ _)]
    refine and_congr_right fun _ => ?_
    rw [and_iff_right (by omega), hbefore, Nat.dvd_add_right (Nat.dvd_refl limit)]
    rcases Nat.eq_or_lt_of_le hle with heq | hgt
    · -- the page of `row` is the one before the last of them
      have hindex' : rest.length - 1 = limit - 1 := by omega
      rw [hindex', hrow]
      simp only [← heq, Nat.lt_irrefl, false_implies, and_true, true_implies, Option.some.injEq,
        forall_eq', Nat.dvd_refl]
      exact ⟨fun hne => hne (by omega), fun hne _ => hne⟩
    · have hindex' : rest.length - 1 = limit + (rest.length - limit - 1) := by omega
      rw [hindex', hshift]
      rw [and_iff_right (fun heq => absurd heq (by omega))]
      exact ⟨fun hdvd _ => hdvd (by omega), fun hdvd _ => hdvd hgt⟩

theorem exists_follow (h : NullsLast cursorOf selects ranked unranked) (hpos : 0 < limit)
    (front : List α) {left selected : List α} (hranked : ranked = front ++ left)
    (hsuffix : selected <:+ unranked) {cursor : Option γ}
    (hselect : select selects (ranked ++ unranked) cursor = left ++ selected) :
    ∃ fuel tail, tail <:+ unranked ∧
      follow (fetch limit cursorOf selects (ranked ++ unranked)) fuel cursor =
        some (left ++ tail) ∧
      (tail = unranked ↔ Resumes limit cursorOf selects unranked left selected) := by
  induction hn : left.length using Nat.strongRecOn generalizing front left selected cursor with
  | ind n ih =>
      by_cases hlt : limit < (left ++ selected).length
      · obtain ⟨init, row, rest, hsplit, -, hinit, hpage⟩ := paginate_of_lt cursorOf hpos hlt
        have hfetch : fetch limit cursorOf selects (ranked ++ unranked) cursor =
            ⟨init ++ [row], some (cursorOf row)⟩ := by
          unfold fetch
          rw [hselect, hpage]
        rcases Nat.lt_or_ge left.length limit with hshort | hlong
        · -- the page ends with a row without a rank
          obtain ⟨middle, rfl, hselected⟩ : ∃ middle, init = left ++ middle ∧
              selected = middle ++ row :: rest := by
            rcases List.append_eq_append_iff.mp hsplit with ⟨l, hl, hl'⟩ | ⟨l, hl, hl'⟩
            · exact ⟨l, hl, hl'⟩
            · cases l with
              | nil => exact ⟨[], by rw [hl]; simp, by rw [List.nil_append] at hl' ⊢; exact hl'.symm⟩
              | cons x l =>
                  have hlong := congrArg List.length hl
                  rw [List.length_append, List.length_cons] at hlong
                  omega
          obtain ⟨lead, hlead⟩ := hsuffix
          have hunranked : unranked = (lead ++ middle) ++ row :: rest := by
            rw [← hlead, hselected, List.append_assoc]
          obtain ⟨fuel, hfuel⟩ := h.exists_follow_of_suffix hpos
            ⟨lead ++ middle ++ [row], by rw [hunranked]; simp⟩ (h.select_unranked hunranked)
          refine ⟨fuel + 1, selected, ⟨lead, hlead⟩, ?_, ?_⟩
          · rw [hsplit, follow_succ_of_lt hfetch]
            exact hfuel
          · unfold Resumes
            have hnot : ¬ limit ≤ left.length := Nat.not_le.mpr hshort
            simp only [hshort, hnot, true_and, false_and, or_false]
            refine ⟨.inr, ?_⟩
            rintro (hnil | hall)
            · rw [hnil] at hunranked
              exact absurd hunranked (by simp)
            · exact hall
        · -- the page ends with a row with a rank
          obtain ⟨left', hleft, rfl⟩ : ∃ left', left = init ++ row :: left' ∧
              rest = left' ++ selected := by
            rcases List.append_eq_append_iff.mp hsplit with ⟨l, hl, -⟩ | ⟨l, hl, hl'⟩
            · have hlen := congrArg List.length hl
              rw [List.length_append] at hlen
              omega
            · cases l with
              | nil =>
                  rw [hl, List.append_nil] at hlong
                  omega
              | cons x l =>
                  obtain ⟨rfl, htail⟩ := List.cons.inj hl'
                  exact ⟨l, hl, htail⟩
          have hranked' : ranked = (front ++ init) ++ row :: left' := by
            rw [hranked, hleft, List.append_assoc]
          have hmem : row ∈ ranked := by
            rw [hranked']
            simp
          obtain ⟨fuel, tail, htail, hfollow, hiff⟩ := ih left'.length
            (by rw [← hn, hleft, List.length_append, List.length_cons]; omega)
            (front ++ init ++ [row]) (by rw [hranked']; simp) (h.unranked_of_ranked row hmem)
            (h.select_ranked hranked') rfl
          refine ⟨fuel + 1, tail, htail, ?_, ?_⟩
          · rw [follow, hfetch]
            refine Option.map_eq_some_iff.mpr ⟨_, hfollow, ?_⟩
            rw [hleft]
            simp
          · rw [hiff, hleft, resumes_page_iff hinit]
            by_contra hnone
            push Not at hnone
            rw [hleft, hnone.1, hnone.2, List.append_nil, List.length_append,
              List.length_singleton] at hlt
            omega
      · refine ⟨1, selected, hsuffix, ?_, ?_⟩
        · have hfetch : fetch limit cursorOf selects (ranked ++ unranked) cursor =
              ⟨left ++ selected, none⟩ := by
            unfold fetch
            rw [hselect, paginate_of_le (Nat.not_lt.mp hlt)]
          rw [follow, hfetch]
        · rw [List.length_append] at hlt
          unfold Resumes
          rcases Nat.lt_or_ge left.length limit with hshort | hlong
          · have hnot : ¬ limit ≤ left.length := Nat.not_le.mpr hshort
            simp only [hshort, hnot, true_and, false_and, or_false]
            refine ⟨.inr, ?_⟩
            rintro (hnil | hall)
            · rw [hnil] at hsuffix ⊢
              exact List.suffix_nil.mp hsuffix
            · exact hall
          · -- the rows with a rank fill the page, and no other is selected
            have hselected : selected = [] := List.length_eq_zero_iff.mp (by omega)
            subst hselected
            constructor
            · intro hnil
              exact .inl hnil.symm
            · rintro (hnil | ⟨hshort, -⟩ | ⟨-, -, hmore, -⟩)
              · exact hnil.symm
              · omega
              · exact absurd rfl (hmore (by rw [List.length_nil] at hlt; omega))

theorem follow_perm_iff (h : NullsLast cursorOf selects ranked unranked) (hpos : 0 < limit) :
    (∃ fuel out, follow (fetch limit cursorOf selects (ranked ++ unranked)) fuel none = some out ∧
        out.Perm (ranked ++ unranked)) ↔
      Resumes limit cursorOf selects unranked ranked unranked := by
  have hselect : select selects (ranked ++ unranked) none = ranked ++ unranked := rfl
  obtain ⟨fuel, tail, hsuffix, hfollow, hiff⟩ :=
    h.exists_follow hpos [] rfl List.suffix_rfl hselect
  rw [← hiff]
  constructor
  · rintro ⟨fuel', out, hout, hperm⟩
    rw [follow_unique hout hfollow] at hperm
    exact hsuffix.eq_of_length ((List.perm_append_left_iff _).mp hperm).length_eq
  · rintro rfl
    exact ⟨fuel, _, hfollow, .refl _⟩

end NullsLast

end Keyset
