import Mathlib.Data.List.Basic
import Mathlib.Order.Defs.Unbundled
import Mathlib.Tactic.Common

/-!
# Keyset Pagination

A list is read page by page: a page holds the first rows of a selection of the list, and, if
there are more, a cursor made from its last row, from which the next selection is made.

- `follow`: the pages from one cursor on, joined, until a page has no cursor;
- `Exact`: at every row that ends a page with more rows after it, the cursor selects exactly the
  rows after it;
- `follow_eq_some_iff_exact`: following the cursors from the first page gives back the whole list
  exactly when all of its boundaries are exact.
-/

namespace Keyset

variable {α γ : Type*}

structure Page (α γ : Type*) where
  data : List α
  /-- The cursor of the next page, if there is one. -/
  nextCursor : Option γ

/-- The first `limit` of the selected rows, with the cursor of the last of them if there are
more. -/
def paginate (limit : ℕ) (cursorOf : α → γ) (selected : List α) : Page α γ where
  data := selected.take limit
  nextCursor :=
    if limit < selected.length then (selected.take limit).getLast?.map cursorOf else none

theorem paginate_take (limit : ℕ) (cursorOf : α → γ) (selected : List α) :
    let rows := selected.take (limit + 1)
    let page := if limit < rows.length then rows.take limit else rows
    ({ data := page
       nextCursor := if limit < rows.length then page.getLast?.map cursorOf else none } :
      Page α γ) = paginate limit cursorOf selected := by
  intro rows page
  have hlen : limit < rows.length ↔ limit < selected.length := by
    rw [List.length_take]
    omega
  have hpage : page = selected.take limit := by
    by_cases hmore : limit < rows.length
    · rw [show page = rows.take limit from if_pos hmore, List.take_take,
        Nat.min_eq_left (Nat.le_succ _)]
    · have hshort : selected.length ≤ limit := Nat.not_lt.mp (mt hlen.mpr hmore)
      have hrows : rows = selected := List.take_of_length_le (Nat.le_succ_of_le hshort)
      rw [show page = rows from if_neg hmore, hrows, List.take_of_length_le hshort]
  rw [paginate, hpage]
  simp only [hlen]

/-- The rows of the pages from `cursor` on, or `none` if the pages do not end within `fuel`. -/
def follow (fetch : Option γ → Page α γ) : ℕ → Option γ → Option (List α)
  | 0, _ => none
  | fuel + 1, cursor =>
      match (fetch cursor).nextCursor with
      | none => some (fetch cursor).data
      | some next => (follow fetch fuel (some next)).map ((fetch cursor).data ++ ·)

section exact

variable (limit : ℕ) (cursorOf : α → γ) (selects : γ → α → Bool) (rows : List α)

/-- The rows that a cursor selects; without one, all rows. -/
def select : Option γ → List α
  | none => rows
  | some cursor => rows.filter (selects cursor)

def fetch (cursor : Option γ) : Page α γ :=
  paginate limit cursorOf (select selects rows cursor)

/-- At every row that ends a page with more rows after it, its cursor selects exactly these. -/
def Exact : Prop :=
  ∀ front row rest, rows = front ++ row :: rest → rest ≠ [] → limit ∣ front.length + 1 →
    rows.filter (selects (cursorOf row)) = rest

variable {limit cursorOf selects rows}

theorem filter_append_eq_right_iff {p : α → Bool} {front rest : List α}
    (hdisjoint : ∀ x ∈ front, x ∉ rest) :
    (front ++ rest).filter p = rest ↔ (∀ x ∈ front, p x = false) ∧ ∀ x ∈ rest, p x = true := by
  rw [List.filter_append]
  constructor
  · intro h
    have hfront : ∀ x ∈ front, p x = false := by
      intro x hx
      by_contra hpx
      rw [Bool.not_eq_false] at hpx
      have hmem : x ∈ front.filter p ++ rest.filter p :=
        List.mem_append_left _ (List.mem_filter.mpr ⟨hx, hpx⟩)
      rw [h] at hmem
      exact hdisjoint x hx hmem
    refine ⟨hfront, fun x hx => ?_⟩
    have hnil : front.filter p = [] :=
      List.filter_eq_nil_iff.mpr fun y hy => by rw [hfront y hy]; exact Bool.false_ne_true
    rw [hnil, List.nil_append] at h
    rw [← h] at hx
    exact (List.mem_filter.mp hx).2
  · rintro ⟨hfront, hrest⟩
    rw [List.filter_eq_nil_iff.mpr (fun y hy => by rw [hfront y hy]; exact Bool.false_ne_true),
      List.filter_eq_self.mpr hrest, List.nil_append]

theorem paginate_of_lt (cursorOf : α → γ) {selected : List α} (hpos : 0 < limit) (hlt : limit < selected.length) :
    ∃ init row rest, selected = init ++ row :: rest ∧ rest ≠ [] ∧ init.length + 1 = limit ∧
      paginate limit cursorOf selected = ⟨init ++ [row], some (cursorOf row)⟩ := by
  have hlen : (selected.take limit).length = limit := by
    rw [List.length_take]
    omega
  have hne : selected.take limit ≠ [] := by
    intro h
    rw [h, List.length_nil] at hlen
    omega
  obtain ⟨init, row, hinit⟩ := (List.eq_nil_or_concat (selected.take limit)).resolve_left hne
  rw [List.concat_eq_append] at hinit
  refine ⟨init, row, selected.drop limit, ?_, ?_, ?_, ?_⟩
  · have h := List.take_append_drop limit selected
    rw [hinit] at h
    rw [← List.singleton_append, ← List.append_assoc]
    exact h.symm
  · intro h
    have hdrop := congrArg List.length h
    rw [List.length_drop, List.length_nil] at hdrop
    omega
  · rw [hinit, List.length_append, List.length_singleton] at hlen
    exact hlen
  · unfold paginate
    rw [if_pos hlt, hinit, List.getLast?_concat]
    rfl

theorem paginate_of_le {selected : List α} (hle : selected.length ≤ limit) :
    paginate limit cursorOf selected = ⟨selected, none⟩ := by
  unfold paginate
  rw [if_neg (Nat.not_lt.mpr hle), List.take_of_length_le hle]

theorem follow_succ_of_lt {fuel : ℕ} {cursor : Option γ} {init rest : List α} {row : α}
    (hpage : fetch limit cursorOf selects rows cursor
      = ⟨init ++ [row], some (cursorOf row)⟩) :
    follow (fetch limit cursorOf selects rows) (fuel + 1) cursor = some (init ++ row :: rest) ↔
      follow (fetch limit cursorOf selects rows) fuel (some (cursorOf row)) = some rest := by
  rw [follow, hpage]
  simp only [Option.map_eq_some_iff]
  constructor
  · rintro ⟨out, hout, heq⟩
    have hsplit : init ++ row :: rest = (init ++ [row]) ++ rest := by simp
    rw [hsplit] at heq
    rw [hout, List.append_cancel_left heq]
  · intro hout
    exact ⟨rest, hout, by simp⟩

theorem exists_follow_of_exact (hpos : 0 < limit) (hexact : Exact limit cursorOf selects rows)
    (front : List α) {rest : List α} (hrows : rows = front ++ rest) (hdvd : limit ∣ front.length)
    {cursor : Option γ} (hselect : select selects rows cursor = rest) :
    ∃ fuel, follow (fetch limit cursorOf selects rows) fuel cursor = some rest := by
  induction hn : rest.length using Nat.strongRecOn generalizing front rest cursor with
  | ind n ih =>
      by_cases hlt : limit < rest.length
      · obtain ⟨init, row, rest', hsplit, hne, hinit, hpage⟩ :=
          paginate_of_lt cursorOf hpos hlt
        have hfetch : fetch limit cursorOf selects rows cursor
            = ⟨init ++ [row], some (cursorOf row)⟩ := by
          unfold fetch
          rw [hselect, hpage]
        -- the next selection is the rest after this page
        have hrows' : rows = (front ++ init) ++ row :: rest' := by
          rw [hrows, hsplit, List.append_assoc]
        have hdvd' : limit ∣ (front ++ init).length + 1 := by
          rw [List.length_append, Nat.add_assoc, hinit]
          exact (Nat.dvd_add_right hdvd).mpr (Nat.dvd_refl limit)
        have hnext : select selects rows (some (cursorOf row)) = rest' :=
          hexact _ row rest' hrows' hne hdvd'
        have hshorter : rest'.length < n := by
          rw [← hn, hsplit, List.length_append, List.length_cons]
          omega
        obtain ⟨fuel, hfuel⟩ := ih rest'.length hshorter (front ++ init ++ [row])
          (by rw [hrows']; simp) (by rwa [List.length_append, List.length_singleton]) hnext rfl
        refine ⟨fuel + 1, ?_⟩
        rw [hsplit, follow_succ_of_lt hfetch]
        exact hfuel
      · refine ⟨1, ?_⟩
        have hfetch : fetch limit cursorOf selects rows cursor = ⟨rest, none⟩ := by
          unfold fetch
          rw [hselect, paginate_of_le (Nat.not_lt.mp hlt)]
        rw [follow, hfetch]

end exact

section necessary

variable {limit : ℕ} {cursorOf : α → γ} {selects : γ → α → Bool} {rows : List α} {cursor : Option γ}

theorem head?_of_follow (hpos : 0 < limit) {fuel : ℕ} {out : List α}
    (h : follow (fetch limit cursorOf selects rows) fuel cursor = some out) :
    out.head? = (select selects rows cursor).head? := by
  cases fuel with
  | zero => cases h
  | succ fuel =>
      by_cases hlt : limit < (select selects rows cursor).length
      · obtain ⟨init, row, rest, hsplit, -, -, hpage⟩ :=
          paginate_of_lt cursorOf hpos hlt
        have hfetch : fetch limit cursorOf selects rows cursor
            = ⟨init ++ [row], some (cursorOf row)⟩ := hpage
        rw [follow, hfetch] at h
        obtain ⟨out', -, rfl⟩ := Option.map_eq_some_iff.mp h
        rw [hsplit]
        cases init <;> rfl
      · have hfetch : fetch limit cursorOf selects rows cursor
            = ⟨select selects rows cursor, none⟩ := paginate_of_le (Nat.not_lt.mp hlt)
        rw [follow, hfetch] at h
        rw [← Option.some.inj h]

variable (r : α → α → Prop)

theorem mem_select_of_follow (hpos : 0 < limit)
    (htrans : ∀ a b x, selects (cursorOf a) b = true → r b x → selects (cursorOf b) x = true →
      selects (cursorOf a) x = true)
    {fuel : ℕ} (hcursor : cursor = none ∨ ∃ a, cursor = some (cursorOf a)) {out : List α}
    (h : follow (fetch limit cursorOf selects rows) fuel cursor = some out)
    (hsorted : out.Pairwise r) {x : α} (hx : x ∈ out) : x ∈ select selects rows cursor := by
  induction fuel generalizing cursor out with
  | zero => cases h
  | succ fuel ih =>
      by_cases hlt : limit < (select selects rows cursor).length
      · obtain ⟨init, row, rest, hsplit, -, -, hpage⟩ :=
          paginate_of_lt cursorOf hpos hlt
        have hfetch : fetch limit cursorOf selects rows cursor
            = ⟨init ++ [row], some (cursorOf row)⟩ := hpage
        rw [follow, hfetch] at h
        obtain ⟨out', hout', rfl⟩ := Option.map_eq_some_iff.mp h
        rcases List.mem_append.mp hx with hx | hx
        · rw [hsplit, ← List.singleton_append, ← List.append_assoc]
          exact List.mem_append_left _ hx
        · -- `x` is read later, hence after `row`, whose cursor selects it
          have hrow : r row x := (List.pairwise_append.mp hsorted).2.2 row (by simp) x hx
          have hlater := ih (Or.inr ⟨row, rfl⟩) hout' (List.pairwise_append.mp hsorted).2.1 hx
          rcases hcursor with rfl | ⟨a, rfl⟩
          · exact (List.mem_filter.mp hlater).1
          · have hmem : row ∈ select selects rows (some (cursorOf a)) := by
              rw [hsplit]
              simp
            refine List.mem_filter.mpr ⟨(List.mem_filter.mp hlater).1, ?_⟩
            exact htrans a row x (List.mem_filter.mp hmem).2 hrow (List.mem_filter.mp hlater).2
      · have hfetch : fetch limit cursorOf selects rows cursor
            = ⟨select selects rows cursor, none⟩ := paginate_of_le (Nat.not_lt.mp hlt)
        rw [follow, hfetch] at h
        have hout : select selects rows cursor = out := Option.some.inj h
        rw [hout]
        exact hx

variable [Std.Irrefl r]

theorem filter_eq_of_follow (hpos : 0 < limit) (hsorted : rows.Pairwise r)
    (htrans : ∀ a b x, selects (cursorOf a) b = true → r b x → selects (cursorOf b) x = true →
      selects (cursorOf a) x = true)
    {front rest : List α} {row : α} (hrows : rows = front ++ row :: rest) {fuel : ℕ}
    (h : follow (fetch limit cursorOf selects rows) fuel (some (cursorOf row)) = some rest) :
    rows.filter (selects (cursorOf row)) = rest := by
  have hparts := List.pairwise_append.mp (hrows ▸ hsorted)
  have hrest : rest.Pairwise r := (List.pairwise_cons.mp hparts.2.1).2
  have hafter : ∀ x ∈ front ++ [row], ∀ y ∈ rest, r x y := by
    intro x hx y hy
    rcases List.mem_append.mp hx with hx | hx
    · exact hparts.2.2 x hx y (List.mem_cons_of_mem _ hy)
    · rw [List.mem_singleton.mp hx]
      exact (List.pairwise_cons.mp hparts.2.1).1 y hy
  -- nothing up to `row` is selected: the first selected row would be read first
  have hnone : ∀ x ∈ front ++ [row], selects (cursorOf row) x = false := by
    intro x hx
    by_contra hsel
    rw [Bool.not_eq_false] at hsel
    have hhead := head?_of_follow hpos h
    have hsplit : rows = (front ++ [row]) ++ rest := by rw [hrows]; simp
    have hselect : select selects rows (some (cursorOf row))
        = (front ++ [row]).filter (selects (cursorOf row)) ++
          rest.filter (selects (cursorOf row)) := by
      show rows.filter _ = _
      rw [← List.filter_append, ← hsplit]
    cases hfilter : (front ++ [row]).filter (selects (cursorOf row)) with
    | nil =>
        have hmem : x ∈ (front ++ [row]).filter (selects (cursorOf row)) :=
          List.mem_filter.mpr ⟨hx, hsel⟩
        rw [hfilter] at hmem
        exact List.not_mem_nil hmem
    | cons y ys =>
        have hy : y ∈ front ++ [row] := by
          have hmem : y ∈ (front ++ [row]).filter (selects (cursorOf row)) := by
            rw [hfilter]
            exact List.mem_cons_self
          exact (List.mem_filter.mp hmem).1
        rw [hselect, hfilter, List.cons_append, List.head?_cons] at hhead
        have hyrest : y ∈ rest := List.mem_of_head? hhead
        exact Std.Irrefl.irrefl y (hafter y hy y hyrest)
  have hall : ∀ x ∈ rest, selects (cursorOf row) x = true := by
    intro x hx
    exact (List.mem_filter.mp
      (mem_select_of_follow r hpos htrans (Or.inr ⟨row, rfl⟩) h hrest hx)).2
  have hdisjoint : ∀ x ∈ front ++ [row], x ∉ rest :=
    fun x hx hx' => Std.Irrefl.irrefl x (hafter x hx x hx')
  rw [hrows, ← List.singleton_append, ← List.append_assoc, filter_append_eq_right_iff hdisjoint]
  exact ⟨hnone, hall⟩

theorem exact_of_follow (hpos : 0 < limit) (hsorted : rows.Pairwise r)
    (htrans : ∀ a b x, selects (cursorOf a) b = true → r b x → selects (cursorOf b) x = true →
      selects (cursorOf a) x = true)
    (front : List α) {rest : List α} (hrows : rows = front ++ rest) {fuel : ℕ}
    (hselect : select selects rows cursor = rest)
    (h : follow (fetch limit cursorOf selects rows) fuel cursor = some rest) {mid after : List α}
    {row : α} (hrest : rest = mid ++ row :: after) (hne : after ≠ [])
    (hdvd : limit ∣ mid.length + 1) : rows.filter (selects (cursorOf row)) = after := by
  induction fuel generalizing front rest cursor mid with
  | zero => cases h
  | succ fuel ih =>
      have hmid : limit ≤ mid.length + 1 := Nat.le_of_dvd (Nat.succ_pos _) hdvd
      have hafter : 0 < after.length := List.length_pos_iff.mpr hne
      have hlen : rest.length = mid.length + 1 + after.length := by
        rw [hrest, List.length_append, List.length_cons]
        omega
      obtain ⟨init, last, rest', hsplit, -, hinit, hpage⟩ :=
        paginate_of_lt cursorOf hpos (show limit < rest.length by omega)
      have hfetch : fetch limit cursorOf selects rows cursor
          = ⟨init ++ [last], some (cursorOf last)⟩ := by
        unfold fetch
        rw [hselect, hpage]
      rw [hsplit, follow_succ_of_lt hfetch] at h
      have hrows' : rows = (front ++ init) ++ last :: rest' := by
        rw [hrows, hsplit, List.append_assoc]
      have hlast := filter_eq_of_follow r hpos hsorted htrans hrows' h
      have hmids : mid ++ row :: after = init ++ last :: rest' := hrest ▸ hsplit
      rcases Nat.eq_or_lt_of_le hmid with heq | hlt
      · -- `row` ends this page
        obtain ⟨-, htail⟩ := List.append_inj hmids (by omega)
        obtain ⟨rfl, rfl⟩ := List.cons.inj htail
        exact hlast
      · -- `row` ends a later page
        obtain ⟨mid', rfl, htail⟩ : ∃ mid', mid = init ++ last :: mid' ∧
            rest' = mid' ++ row :: after := by
          rcases List.append_eq_append_iff.mp hmids with ⟨l, hl, -⟩ | ⟨l, hl, hl'⟩
          · have hlong := congrArg List.length hl
            rw [List.length_append] at hlong
            omega
          · cases l with
            | nil =>
                rw [hl, List.append_nil] at hlt
                omega
            | cons x l =>
                obtain ⟨rfl, htail⟩ := List.cons.inj hl'
                exact ⟨l, hl, htail⟩
        have hselect' : select selects rows (some (cursorOf last)) = rest' := hlast
        refine ih (front ++ init ++ [last]) (by rw [hrows']; simp) hselect' h htail ?_
        rw [List.length_append, List.length_cons] at hdvd
        have hlong : init.length + (mid'.length + 1) + 1 = limit + (mid'.length + 1) := by omega
        rw [hlong] at hdvd
        exact (Nat.dvd_add_right (Nat.dvd_refl limit)).mp hdvd

theorem follow_eq_some_iff_exact (hpos : 0 < limit) (hsorted : rows.Pairwise r)
    (htrans : ∀ a b x, selects (cursorOf a) b = true → r b x → selects (cursorOf b) x = true →
      selects (cursorOf a) x = true) :
    (∃ fuel, follow (fetch limit cursorOf selects rows) fuel none = some rows) ↔
      Exact limit cursorOf selects rows := by
  constructor
  · rintro ⟨fuel, hfollow⟩ front row rest hrows hne hdvd
    exact exact_of_follow r hpos hsorted htrans [] rfl rfl hfollow hrows hne hdvd
  · intro hexact
    exact exists_follow_of_exact hpos hexact [] rfl (by simp) rfl

end necessary

end Keyset
