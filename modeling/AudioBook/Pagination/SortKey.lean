import AudioBook.Pagination.Keyset
import Mathlib.Data.List.Sort
import Mathlib.Order.Basic

/-!
# Pagination by a Sort Key

A listing that is ordered by a key which rows may share, and whose cursor holds the key alone: the
next page starts with the rows of greater key. The rows of one key come in any order, which may
change from query to query.

- `KeyOrder`: how the queries of a listing order their rows.
- `Untied`: no page ends between two equal keys.
- `follow_fetchAfter_perm_iff`: following the cursors gives every row once exactly then.
-/

namespace Keyset

variable {α κ : Type*} [LinearOrder κ]

/-- How the queries of a listing order their rows: by the key. The order of the rows of one key is
not known, and may depend on the cursor of the query. -/
structure KeyOrder (key : α → κ) where
  /-- The rows of the query at a cursor, as they are returned. -/
  order : Option κ → List α → List α
  perm : ∀ cursor rows, (order cursor rows).Perm rows
  sorted : ∀ cursor rows, (order cursor rows).Pairwise fun a b => key a ≤ key b

/-- Every query returns the rows of one key in the order of the table. -/
def KeyOrder.stable (key : α → κ) : KeyOrder key where
  order _ rows := rows.insertionSort fun a b => key a ≤ key b
  perm _ rows := List.perm_insertionSort _ rows
  sorted _ rows :=
    haveI : Std.Total fun a b : α => key a ≤ key b := ⟨fun a b => le_total (key a) (key b)⟩
    haveI : IsTrans α fun a b : α => key a ≤ key b := ⟨fun _ _ _ => le_trans⟩
    List.pairwise_insertionSort (fun a b : α => key a ≤ key b) rows

/-- The cursor `key` selects the rows of greater key. -/
def isAfter (key : α → κ) (cursor : κ) (row : α) : Bool := decide (cursor < key row)

section fetchAfter

variable (limit : ℕ) {key : α → κ} (scan : KeyOrder key) (rows : List α)

def fetchAfter (cursor : Option κ) : Page α κ :=
  paginate limit key (scan.order cursor (select (isAfter key) rows cursor))

end fetchAfter

def sortedKeys (key : α → κ) (rows : List α) : List κ := (rows.map key).insertionSort (· ≤ ·)

/-- No multiple of `limit` separates two equal keys. -/
def Untied (limit : ℕ) (keys : List κ) : Prop :=
  ∀ i a b, limit ∣ i + 1 → keys[i]? = some a → keys[i + 1]? = some b → a < b

section untied

variable {limit : ℕ} {key : α → κ} {rows : List α}

theorem sortedKeys_eq_map {sorted : List α} (hperm : sorted.Perm rows)
    (hsorted : sorted.Pairwise fun a b => key a ≤ key b) : sortedKeys key rows = sorted.map key := by
  have hkeys : (sorted.map key).Pairwise (· ≤ ·) := List.pairwise_map.mpr hsorted
  refine List.Perm.eq_of_pairwise' (r := (· ≤ ·)) (List.pairwise_insertionSort _ _) hkeys ?_
  exact (List.perm_insertionSort _ _).trans (hperm.symm.map key)

theorem untied_of_length_le {keys : List κ} (hle : keys.length ≤ limit) : Untied limit keys := by
  intro i a b hdvd _ hb
  have hlt : i + 1 < keys.length := (List.getElem?_eq_some_iff.mp hb).1
  have hlimit : limit ≤ i + 1 := Nat.le_of_dvd (Nat.succ_pos i) hdvd
  omega

theorem untied_append_iff {front rest : List κ} {last next : κ} (hlen : front.length + 1 = limit) :
    Untied limit ((front ++ [last]) ++ next :: rest) ↔
      last < next ∧ Untied limit (next :: rest) := by
  have hpage : (front ++ [last]).length = limit := by
    rw [List.length_append, List.length_singleton, hlen]
  constructor
  · intro h
    constructor
    · refine h front.length last next (hlen ▸ Nat.dvd_refl _) ?_ ?_
      · simp
      · rw [List.getElem?_append_right (by omega), hpage, hlen, Nat.sub_self]
        rfl
    · intro i a b hdvd ha hb
      refine h (limit + i) a b ?_ ?_ ?_
      · rw [Nat.add_assoc]
        exact (Nat.dvd_add_right (Nat.dvd_refl limit)).mpr hdvd
      · rw [List.getElem?_append_right (by omega), hpage, Nat.add_sub_cancel_left]
        exact ha
      · rw [List.getElem?_append_right (by omega), hpage, Nat.add_assoc, Nat.add_sub_cancel_left]
        exact hb
  · rintro ⟨hlast, hrest⟩ i a b hdvd ha hb
    have hle : limit ≤ i + 1 := Nat.le_of_dvd (Nat.succ_pos i) hdvd
    rcases Nat.eq_or_lt_of_le hle with heq | hlt
    · -- the boundary after the first page
      have hi : i = front.length := by omega
      subst hi
      rw [List.getElem?_append_right (by omega), hpage, ← heq, Nat.sub_self] at hb
      have ha' : last = a := by simpa using ha
      have hb' : next = b := by simpa using hb
      rw [← ha', ← hb']
      exact hlast
    · have hshift : i = limit + (i - limit) := by omega
      rw [hshift, List.getElem?_append_right (by omega), hpage, Nat.add_sub_cancel_left] at ha
      rw [hshift, Nat.add_assoc, List.getElem?_append_right (by omega), hpage,
        Nat.add_sub_cancel_left] at hb
      refine hrest (i - limit) a b ?_ ha hb
      have hsum : i + 1 = limit + (i - limit + 1) := by omega
      rw [hsum] at hdvd
      exact (Nat.dvd_add_right (Nat.dvd_refl limit)).mp hdvd

end untied

section follow

variable {limit : ℕ} {key : α → κ} {scan : KeyOrder key} {rows : List α} {cursor : Option κ}

theorem fetchAfter_of_le (hle : (select (isAfter key) rows cursor).length ≤ limit) :
    fetchAfter limit scan rows cursor =
      ⟨scan.order cursor (select (isAfter key) rows cursor), none⟩ := by
  refine paginate_of_le ?_
  rwa [(scan.perm cursor _).length_eq]

theorem select_eq_filter {last : α} (hlast : last ∈ select (isAfter key) rows cursor) :
    select (isAfter key) rows (some (key last)) =
      (select (isAfter key) rows cursor).filter (isAfter key (key last)) := by
  cases cursor with
  | none => rfl
  | some cursor =>
      have hbefore : cursor < key last := of_decide_eq_true (List.mem_filter.mp hlast).2
      show rows.filter _ = (rows.filter _).filter _
      rw [List.filter_filter]
      refine List.filter_congr fun row _ => ?_
      unfold isAfter
      rw [← Bool.decide_and]
      exact decide_eq_decide.mpr ⟨fun h => ⟨h, hbefore.trans h⟩, fun h => h.1⟩

theorem length_le_of_follow (hpos : 0 < limit) {fuel : ℕ} {out : List α}
    (h : follow (fetchAfter limit scan rows) fuel cursor = some out) :
    out.length ≤ (select (isAfter key) rows cursor).length := by
  induction fuel generalizing cursor out with
  | zero => cases h
  | succ fuel ih =>
      have hperm := scan.perm cursor (select (isAfter key) rows cursor)
      by_cases hlt : limit < (select (isAfter key) rows cursor).length
      · obtain ⟨init, last, rest, hsplit, -, -, hpage⟩ :=
          paginate_of_lt key hpos (hperm.length_eq ▸ hlt)
        have hfetch : fetchAfter limit scan rows cursor = ⟨init ++ [last], some (key last)⟩ := hpage
        rw [follow, hfetch] at h
        obtain ⟨out', hout', rfl⟩ := Option.map_eq_some_iff.mp h
        rw [hsplit] at hperm
        have hlast : last ∈ select (isAfter key) rows cursor := hperm.subset (by simp)
        have hnext := ih hout'
        rw [select_eq_filter hlast, ← (hperm.filter _).length_eq, List.filter_append,
          List.filter_cons_of_neg (by simp [isAfter])] at hnext
        have hfront : init.filter (isAfter key (key last)) = [] := by
          have hsorted := scan.sorted cursor (select (isAfter key) rows cursor)
          rw [hsplit] at hsorted
          refine List.filter_eq_nil_iff.mpr fun row hrow => ?_
          have hle := (List.pairwise_append.mp hsorted).2.2 row hrow last List.mem_cons_self
          simpa [isAfter] using hle
        rw [hfront, List.nil_append] at hnext
        have hrest := List.length_filter_le (isAfter key (key last)) rest
        rw [← hperm.length_eq]
        simp only [List.length_append, List.length_cons, List.length_nil]
        omega
      · rw [follow, fetchAfter_of_le (Nat.not_lt.mp hlt)] at h
        rw [← Option.some.inj h, hperm.length_eq]

theorem follow_perm_select_iff (hpos : 0 < limit) (cursor : Option κ) :
    (∃ fuel out, follow (fetchAfter limit scan rows) fuel cursor = some out ∧
        out.Perm (select (isAfter key) rows cursor)) ↔
      Untied limit (sortedKeys key (select (isAfter key) rows cursor)) := by
  induction hn : (select (isAfter key) rows cursor).length using Nat.strongRecOn
    generalizing cursor with
  | ind n ih =>
      have hperm := scan.perm cursor (select (isAfter key) rows cursor)
      have hsorted := scan.sorted cursor (select (isAfter key) rows cursor)
      rw [sortedKeys_eq_map hperm hsorted]
      by_cases hlt : limit < (select (isAfter key) rows cursor).length
      · obtain ⟨init, last, rest, hsplit, hne, hinit, hpage⟩ :=
          paginate_of_lt key hpos (hperm.length_eq ▸ hlt)
        have hfetch : fetchAfter limit scan rows cursor = ⟨init ++ [last], some (key last)⟩ := hpage
        obtain ⟨next, after, rfl⟩ := List.exists_cons_of_ne_nil hne
        rw [hsplit] at hperm hsorted ⊢
        have hlast : last ∈ select (isAfter key) rows cursor := hperm.subset (by simp)
        -- the next selection: the rows of greater key among those that are left
        have hnext : (select (isAfter key) rows (some (key last))).Perm
            ((next :: after).filter (isAfter key (key last))) := by
          rw [select_eq_filter hlast]
          refine (hperm.symm.filter _).trans ?_
          rw [List.filter_append, List.filter_cons_of_neg (by simp [isAfter]),
            List.filter_eq_nil_iff.mpr, List.nil_append]
          intro row hrow
          simpa [isAfter] using
            (List.pairwise_append.mp hsorted).2.2 row hrow last List.mem_cons_self
        have htail : (next :: after).Pairwise fun a b => key a ≤ key b :=
          (List.pairwise_cons.mp (List.pairwise_append.mp hsorted).2.1).2
        have hsplit' : (init ++ last :: next :: after).map key =
            (init.map key ++ [key last]) ++ key next :: after.map key := by simp
        rw [hsplit', untied_append_iff (by rwa [List.length_map])]
        -- the rest is read once exactly when it is selected and read once
        have hshort : (select (isAfter key) rows (some (key last))).length < n := by
          rw [← hn, ← hperm.length_eq, hnext.length_eq, List.length_append, List.length_cons]
          have := List.length_filter_le (isAfter key (key last)) (next :: after)
          omega
        have hiff := ih _ hshort (some (key last)) rfl
        have hall : key last < key next →
            (next :: after).filter (isAfter key (key last)) = next :: after := by
          intro hlastnext
          refine List.filter_eq_self.mpr fun row hrow => decide_eq_true ?_
          rcases List.mem_cons.mp hrow with rfl | hrow
          · exact hlastnext
          · exact hlastnext.trans_le ((List.pairwise_cons.mp htail).1 row hrow)
        constructor
        · rintro ⟨fuel, out, hout, houtperm⟩
          cases fuel with
          | zero => cases hout
          | succ fuel =>
              rw [follow, hfetch] at hout
              obtain ⟨out', hout', rfl⟩ := Option.map_eq_some_iff.mp hout
              have hrest : out'.Perm (next :: after) := by
                have h := houtperm.trans hperm.symm
                have hcons : init ++ last :: next :: after =
                    (init ++ [last]) ++ next :: after := by simp
                rw [hcons] at h
                exact (List.perm_append_left_iff _).mp h
              have hlength := length_le_of_follow hpos hout'
              rw [hnext.length_eq, hrest.length_eq] at hlength
              have hself : (next :: after).filter (isAfter key (key last)) = next :: after :=
                List.filter_eq_self.mpr
                  (List.length_filter_eq_length_iff.mp
                    (Nat.le_antisymm (List.length_filter_le _ _) hlength))
              rw [hself] at hnext
              have hmem : next ∈ (next :: after).filter (isAfter key (key last)) := by
                rw [hself]
                exact List.mem_cons_self
              refine ⟨of_decide_eq_true (List.mem_filter.mp hmem).2, ?_⟩
              have huntied := hiff.mp ⟨fuel, out', hout', hrest.trans hnext.symm⟩
              rwa [sortedKeys_eq_map hnext.symm htail] at huntied
        · rintro ⟨hlastnext, huntied⟩
          rw [hall hlastnext] at hnext
          rw [sortedKeys_eq_map hnext.symm htail] at hiff
          obtain ⟨fuel, out, hout, houtperm⟩ := hiff.mpr huntied
          refine ⟨fuel + 1, (init ++ [last]) ++ out, ?_, ?_⟩
          · rw [follow, hfetch]
            exact Option.map_eq_some_iff.mpr ⟨out, hout, rfl⟩
          · refine (List.Perm.append_left _ (houtperm.trans hnext)).trans ?_
            simpa using hperm
      · have hle := Nat.not_lt.mp hlt
        refine iff_of_true ⟨1, _, ?_, hperm⟩ (untied_of_length_le ?_)
        · rw [follow, fetchAfter_of_le hle]
        · rwa [List.length_map, hperm.length_eq]

theorem follow_fetchAfter_perm_iff (hpos : 0 < limit) :
    (∃ fuel out, follow (fetchAfter limit scan rows) fuel none = some out ∧ out.Perm rows) ↔
      Untied limit (sortedKeys key rows) :=
  follow_perm_select_iff hpos none

end follow

theorem follow_map {γ γ' : Type*} {φ : γ → γ'} {fetch : Option γ → Page α γ}
    {fetch' : Option γ' → Page α γ'}
    (h : ∀ cursor, fetch' (cursor.map φ) =
      ⟨(fetch cursor).data, (fetch cursor).nextCursor.map φ⟩) (fuel : ℕ) (cursor : Option γ) :
    follow fetch' fuel (cursor.map φ) = follow fetch fuel cursor := by
  induction fuel generalizing cursor with
  | zero => rfl
  | succ fuel ih =>
      rw [follow, follow, h cursor]
      cases hnext : (fetch cursor).nextCursor with
      | none => rfl
      | some next =>
          exact congrArg (Option.map ((fetch cursor).data ++ ·)) (ih (some next))

section sort

variable {key : α → κ} {rows : List α}

theorem pairwise_sort (key : α → κ) (rows : List α) :
    (rows.insertionSort fun a b => key a ≤ key b).Pairwise fun a b => key a ≤ key b :=
  (KeyOrder.stable key).sorted none rows

theorem eq_sort_of_perm (hkeys : (rows.map key).Nodup) {sorted : List α} (hperm : sorted.Perm rows)
    (hsorted : sorted.Pairwise fun a b => key a ≤ key b) :
    sorted = rows.insertionSort fun a b => key a ≤ key b := by
  refine List.Perm.eq_of_pairwise (fun a b ha hb hab hba => ?_) hsorted (pairwise_sort key rows)
    (hperm.trans (List.perm_insertionSort _ rows).symm)
  exact List.inj_on_of_nodup_map hkeys (hperm.subset ha)
    ((List.perm_insertionSort _ rows).subset hb) (le_antisymm hab hba)

theorem filter_sort (hkeys : (rows.map key).Nodup) (p : α → Bool) :
    (rows.insertionSort fun a b => key a ≤ key b).filter p =
      (rows.filter p).insertionSort fun a b => key a ≤ key b := by
  refine eq_sort_of_perm (hkeys.sublist (List.filter_sublist.map key)) ?_ ?_
  · exact (List.perm_insertionSort _ rows).filter p
  · exact (pairwise_sort key rows).sublist List.filter_sublist

end sort

end Keyset
