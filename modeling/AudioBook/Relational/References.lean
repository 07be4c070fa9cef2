import AudioBook.Relational.Table
import Mathlib.Data.List.Perm.Subperm
import Mathlib.Data.List.Count
import Mathlib.Logic.Function.Basic
import Mathlib.Logic.Relation

/-!
# Rows That Refer to Rows of Another Table

A foreign key, as a relation between the rows of two tables: every row carries the key of some row
of the other table. Appending rows and changing columns that the key does not have keep it, and
where the referring rows have different keys there are no more of them than rows they refer to.

- `References`: the foreign key.
- `References.append_key`, `References.append_ref`, `References.updateWhere_key`,
  `References.updateWhere_ref`: what keeps it.
- `countP_le_countP_of_references`: counting the referring rows.

In one table, following the pointers from a row comes to an end when it comes to a row without a
pointer; it never does on a cycle.

- `Pointers.Leads`, `Pointers.Ends`: following the pointers from a row.
- `ends_update_some_iff`: setting one pointer keeps all ends exactly when it closes no cycle.
- `ends_update_none`: removing a pointer keeps all ends.
-/

namespace Relational

variable {ρ ρ' κ : Type}

/-- Every row carries, as its reference, the key of a row of the other table. -/
def References (ref : ρ → κ) (key : ρ' → κ) (rows : List ρ) (rows' : List ρ') : Prop :=
  ∀ r ∈ rows, ∃ r' ∈ rows', key r' = ref r

variable {ref : ρ → κ} {key : ρ' → κ} {rows new : List ρ} {rows' new' : List ρ'}

theorem references_nil : References ref key [] rows' := fun _ h => absurd h List.not_mem_nil

namespace References

theorem append_key (h : References ref key rows rows') :
    References ref key rows (rows' ++ new') := by
  intro r hr
  obtain ⟨r', hr', hkey⟩ := h r hr
  exact ⟨r', List.mem_append_left _ hr', hkey⟩

theorem append_ref (h : References ref key rows rows') (hnew : References ref key new rows') :
    References ref key (rows ++ new) rows' := by
  intro r hr
  rcases List.mem_append.mp hr with hr | hr
  · exact h r hr
  · exact hnew r hr

theorem updateWhere_key {p : ρ' → Bool} {f : ρ' → ρ'} (h : References ref key rows rows')
    (hf : ∀ r ∈ rows, ∀ r', p r' = true → key r' = ref r → key (f r') = ref r) :
    References ref key rows (updateWhere p f rows') := by
  intro r hr
  obtain ⟨r', hr', hkey⟩ := h r hr
  cases hp : p r' with
  | true => exact ⟨f r', mem_updateWhere.mpr (.inl ⟨r', hr', hp, rfl⟩), hf r hr r' hp hkey⟩
  | false => exact ⟨r', mem_updateWhere.mpr (.inr ⟨hr', hp⟩), hkey⟩

theorem updateWhere_ref {p : ρ → Bool} {f : ρ → ρ} (h : References ref key rows rows')
    (hf : ∀ r, ref (f r) = ref r) : References ref key (updateWhere p f rows) rows' := by
  intro r hr
  obtain ⟨r₀, hr₀, -, rfl⟩ | ⟨hr, -⟩ := mem_updateWhere.mp hr
  · rw [hf]
    exact h r₀ hr₀
  · exact h r hr

end References

theorem countP_le_countP_of_references {index : ρ → Option κ} {p : ρ → Bool} {q : ρ' → Bool}
    (ref : ρ → κ) (key : ρ' → κ) (hunique : UniqueWhere index rows)
    (hindex : ∀ r ∈ rows, p r = true → index r = some (ref r))
    (h : ∀ r ∈ rows, p r = true → ∃ r' ∈ rows', q r' = true ∧ key r' = ref r) :
    rows.countP p ≤ rows'.countP q := by
  have hnodup : ((rows.filter p).map ref).Nodup := by
    have hentries : (rows.filter p).filterMap index = (rows.filter p).map ref := by
      rw [← List.filterMap_eq_map]
      apply List.filterMap_congr
      intro r hr
      obtain ⟨hr, hp⟩ := List.mem_filter.mp hr
      exact hindex r hr hp
    rw [← hentries]
    exact hunique.sublist (List.filter_sublist.filterMap index)
  have hsubset : (rows.filter p).map ref ⊆ (rows'.filter q).map key := by
    intro k hk
    obtain ⟨r, hr, rfl⟩ := List.mem_map.mp hk
    obtain ⟨hr, hp⟩ := List.mem_filter.mp hr
    obtain ⟨r', hr', hq, hkey⟩ := h r hr hp
    exact List.mem_map.mpr ⟨r', List.mem_filter.mpr ⟨hr', hq⟩, hkey⟩
  have hlength := (hnodup.subperm hsubset).length_le
  rwa [List.length_map, List.length_map, ← List.countP_eq_length_filter,
    ← List.countP_eq_length_filter] at hlength

end Relational

namespace Pointers

variable {ι : Type*} {next : ι → Option ι} {a b c : ι}

/-- Following the pointers from `a`, zero or more times, comes to `b`. -/
def Leads (next : ι → Option ι) : ι → ι → Prop :=
  Relation.ReflTransGen fun a b => next a = some b

/-- Following the pointers from `a` comes to an end. -/
def Ends (next : ι → Option ι) (a : ι) : Prop := ∃ b, Leads next a b ∧ next b = none

theorem Leads.refl (a : ι) : Leads next a a := Relation.ReflTransGen.refl

theorem Leads.head (h : next a = some b) (hb : Leads next b c) : Leads next a c :=
  Relation.ReflTransGen.head h hb

theorem Leads.cases_head (h : Leads next a c) : a = c ∨ ∃ b, next a = some b ∧ Leads next b c :=
  Relation.ReflTransGen.cases_head h

theorem Ends.of_next (h : next a = some b) (hb : Ends next b) : Ends next a := by
  obtain ⟨c, hc, hend⟩ := hb
  exact ⟨c, hc.head h, hend⟩

theorem ends_of_none (h : next a = none) : Ends next a := ⟨a, Leads.refl a, h⟩

theorem Leads.back (h : next a = some b) (hb : Leads next b a) (hc : Leads next a c) :
    Leads next c a := by
  induction hc with
  | refl => exact Leads.refl a
  | @tail d e _ hde ih =>
      rcases Leads.cases_head ih with rfl | ⟨e', he', hback⟩
      · rw [h] at hde
        rw [← Option.some.inj hde]
        exact hb
      · rw [hde] at he'
        rw [Option.some.inj he']
        exact hback

theorem not_ends_of_cycle (h : next a = some b) (hb : Leads next b a) : ¬ Ends next a := by
  rintro ⟨c, hc, hend⟩
  rcases Leads.cases_head (Leads.back h hb hc) with rfl | ⟨d, hd, -⟩
  · rw [hend] at h
    cases h
  · rw [hend] at hd
    cases hd

section update

variable [DecidableEq ι] {x : ι} {target : Option ι}

theorem Leads.update_self (h : Leads next x a) : Leads (Function.update next a target) x a := by
  induction h using Relation.ReflTransGen.head_induction_on with
  | refl => exact Leads.refl a
  | @head x y hxy _ ih =>
      by_cases hxa : x = a
      · subst hxa
        exact Leads.refl x
      · refine Leads.head ?_ ih
        rw [Function.update_of_ne hxa]
        exact hxy

theorem Leads.update_of_not (hc : Leads next x c) (hnot : ¬ Leads next x a) :
    Leads (Function.update next a target) x c := by
  induction hc using Relation.ReflTransGen.head_induction_on with
  | refl => exact Leads.refl c
  | @head x y hxy _ ih =>
      have hxa : x ≠ a := by
        rintro rfl
        exact hnot (Leads.refl x)
      refine Leads.head ?_ (ih fun hya => hnot (hya.head hxy))
      rw [Function.update_of_ne hxa]
      exact hxy

theorem Ends.update_of_not (h : Ends next x) (hnot : ¬ Leads next x a) :
    Ends (Function.update next a target) x := by
  obtain ⟨c, hc, hend⟩ := h
  refine ⟨c, hc.update_of_not hnot, ?_⟩
  rw [Function.update_of_ne]
  · exact hend
  · rintro rfl
    exact hnot hc

theorem Ends.update_of_leads (ha : Ends (Function.update next a target) a) (h : Leads next x a) :
    Ends (Function.update next a target) x := by
  obtain ⟨c, hc, hend⟩ := ha
  exact ⟨c, h.update_self.trans hc, hend⟩

theorem ends_update_some_iff (h : ∀ x, Ends next x) :
    (∀ x, Ends (Function.update next a (some b)) x) ↔ ¬ Leads next b a := by
  constructor
  · intro hends hba
    exact not_ends_of_cycle (Function.update_self a (some b) next) hba.update_self (hends a)
  · intro hnot x
    by_cases hxa : Leads next x a
    · refine Ends.update_of_leads ?_ hxa
      exact Ends.of_next (Function.update_self a (some b) next) ((h b).update_of_not hnot)
    · exact (h x).update_of_not hxa

theorem ends_update_none (h : ∀ x, Ends next x) (x : ι) : Ends (Function.update next a none) x := by
  by_cases hxa : Leads next x a
  · exact Ends.update_of_leads (ends_of_none (Function.update_self a none next)) hxa
  · exact (h x).update_of_not hxa

end update

end Pointers
