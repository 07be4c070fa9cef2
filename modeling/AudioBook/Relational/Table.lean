import Mathlib.Data.List.Nodup
import Mathlib.Data.List.Pairwise
import Mathlib.Order.Defs.Unbundled
import Mathlib.Tactic.Common

/-!
# Relational Tables With Statement-Level Constraints

A small model of the part of an SQL database that decides whether a transaction commits. A
table is a list of rows with declared constraints; every statement is checked against all the
constraints of its table as soon as it has run, so a transaction that would be consistent only
at its end is still rejected at the statement that breaks a constraint.

Main results:

- `Table.statement_eq_ok_iff`: a statement succeeds exactly when its result meets every
  constraint.
- `uniqueWhere_concat_iff` and `uniqueWhere_updateWhere_iff`: when an insertion, and an update
  of one row, keep a partial unique index.
- `not_selfReferencing_updateWhere`: a row cannot point at an id that no row has yet.
-/

namespace Relational

variable {σ ρ ε ι κ α β : Type}

/-- The kind of constraint that rejects a statement. -/
inductive Violation
  | unique
  | foreignKey
  | check
  deriving DecidableEq, Repr

/-- Exception types that can report a rejected statement. -/
class OfViolation (ε : Type) where
  /-- The exception raised for a violated constraint. -/
  ofViolation : Violation → ε

instance : OfViolation Violation := ⟨id⟩

/-- A declared constraint of a table: what it reports, and whether given rows meet it. -/
structure Constraint (ρ : Type) where
  /-- The violation reported when the rows fail the constraint. -/
  violation : Violation
  holds : List ρ → Bool

/-- No two rows carry the same key; rows whose key is `none` are outside the index. -/
def UniqueWhere (key : ρ → Option κ) (rows : List ρ) : Prop :=
  (rows.filterMap key).Nodup

instance [DecidableEq κ] (key : ρ → Option κ) (rows : List ρ) :
    Decidable (UniqueWhere key rows) :=
  inferInstanceAs (Decidable (rows.filterMap key).Nodup)

/-- Every reference of a row is the id of some row of the same table. -/
def SelfReferencing (id : ρ → ι) (ref : ρ → Option ι) (rows : List ρ) : Prop :=
  ∀ r ∈ rows, ∀ i ∈ ref r, i ∈ rows.map id

instance [DecidableEq ι] (id : ρ → ι) (ref : ρ → Option ι) (rows : List ρ) :
    Decidable (SelfReferencing id ref rows) :=
  inferInstanceAs (Decidable (∀ r ∈ rows, ∀ i ∈ ref r, i ∈ rows.map id))

namespace Constraint

/-- A `CHECK` constraint. -/
def check (p : ρ → Bool) : Constraint ρ where
  violation := .check
  holds rows := rows.all p

/-- A unique index over the rows whose key is `some`: `UNIQUE (…) WHERE …`. -/
def uniqueWhere [DecidableEq κ] (key : ρ → Option κ) : Constraint ρ where
  violation := .unique
  holds rows := decide (UniqueWhere key rows)

/-- A non-deferrable foreign key of a table into itself. -/
def selfReference [DecidableEq ι] (id : ρ → ι) (ref : ρ → Option ι) : Constraint ρ where
  violation := .foreignKey
  holds rows := decide (SelfReferencing id ref rows)

@[simp]
theorem holds_check (p : ρ → Bool) (rows : List ρ) :
    (check p).holds rows = true ↔ ∀ r ∈ rows, p r = true := by
  simp [check]

@[simp]
theorem holds_uniqueWhere [DecidableEq κ] (key : ρ → Option κ) (rows : List ρ) :
    (uniqueWhere key).holds rows = true ↔ UniqueWhere key rows := by
  simp [uniqueWhere]

@[simp]
theorem holds_selfReference [DecidableEq ι] (id : ρ → ι) (ref : ρ → Option ι) (rows : List ρ) :
    (selfReference id ref).holds rows = true ↔ SelfReferencing id ref rows := by
  simp [selfReference]

end Constraint

/-- `UPDATE … SET f WHERE p`, on the rows of a table. -/
def updateWhere (p : ρ → Bool) (f : ρ → ρ) (rows : List ρ) : List ρ :=
  rows.map fun r => if p r then f r else r

/-! ## Rows After an Update -/

variable {rows : List ρ} {p : ρ → Bool} {f : ρ → ρ} {r : ρ}

theorem mem_updateWhere :
    r ∈ updateWhere p f rows ↔
      (∃ r₀ ∈ rows, p r₀ = true ∧ f r₀ = r) ∨ (r ∈ rows ∧ p r = false) := by
  simp only [updateWhere, List.mem_map]
  constructor
  · rintro ⟨r₀, hr₀, rfl⟩
    by_cases hp : p r₀ = true
    · exact .inl ⟨r₀, hr₀, hp, by simp [hp]⟩
    · exact .inr ⟨by simpa [hp] using hr₀, by simp [hp]⟩
  · rintro (⟨r₀, hr₀, hp, rfl⟩ | ⟨hr, hp⟩)
    · exact ⟨r₀, hr₀, by simp [hp]⟩
    · exact ⟨r, hr, by simp [hp]⟩

theorem updateWhere_eq_self (h : ∀ r ∈ rows, p r = false) : updateWhere p f rows = rows := by
  rw [updateWhere]
  exact (List.map_congr_left fun r hr => by simp [h r hr]).trans (List.map_id rows)

theorem updateWhere_concat (h : ∀ r' ∈ rows, p r' = false) (hr : p r = true) :
    updateWhere p f (rows ++ [r]) = rows ++ [f r] := by
  have hrows : updateWhere p f rows = rows := updateWhere_eq_self h
  rw [updateWhere, List.map_append, ← updateWhere, hrows, List.map_singleton, if_pos hr]

theorem map_updateWhere (g : ρ → κ) (hg : ∀ r, g (f r) = g r) (rows : List ρ) :
    (updateWhere p f rows).map g = rows.map g := by
  rw [updateWhere, List.map_map]
  refine List.map_congr_left fun r _ => ?_
  by_cases hp : p r <;> simp [hp, hg]

theorem exists_mem_updateWhere (g : ρ → κ) (hg : ∀ r, g (f r) = g r) (hr : r ∈ rows) :
    ∃ r' ∈ updateWhere p f rows, g r' = g r := by
  have hmem : g r ∈ (updateWhere p f rows).map g := by
    rw [map_updateWhere g hg]
    exact List.mem_map_of_mem hr
  exact List.mem_map.mp hmem

theorem nodup_map_updateWhere {g : ρ → κ} (h : (rows.map g).Nodup) (hg : ∀ r, g (f r) = g r) :
    ((updateWhere p f rows).map g).Nodup := by
  rwa [map_updateWhere g hg]

theorem filterMap_updateWhere (key : ρ → Option κ)
    (hkey : ∀ r ∈ rows, p r = true → key (f r) = key r) :
    (updateWhere p f rows).filterMap key = rows.filterMap key := by
  rw [updateWhere, List.filterMap_map]
  refine List.filterMap_congr fun r hr => ?_
  by_cases hp : p r
  · simp [hp, hkey r hr hp]
  · simp [hp]

theorem find?_updateWhere [DecidableEq κ] {g : ρ → κ} (hg : ∀ r, g (f r) = g r) (rows : List ρ)
    (k : κ) :
    (updateWhere p f rows).find? (fun r => decide (g r = k)) =
      (rows.find? fun r => decide (g r = k)).map fun r => if p r then f r else r := by
  rw [updateWhere, List.find?_map]
  congr 2
  funext r
  by_cases hp : p r <;> simp [hp, hg]

theorem find?_eq_some_iff_of_nodup [DecidableEq κ] {g : ρ → κ} (h : (rows.map g).Nodup) {k : κ} :
    rows.find? (fun r => decide (g r = k)) = some r ↔ r ∈ rows ∧ g r = k := by
  constructor
  · intro hfound
    exact ⟨List.mem_of_find?_eq_some hfound, by simpa using List.find?_some hfound⟩
  · rintro ⟨hr, rfl⟩
    obtain ⟨r', hfound⟩ : ∃ r', rows.find? (fun r₁ => decide (g r₁ = g r)) = some r' :=
      Option.isSome_iff_exists.mp (List.find?_isSome.mpr ⟨r, hr, by simp⟩)
    have hkey : g r' = g r := by simpa using List.find?_some hfound
    rw [hfound, List.inj_on_of_nodup_map h (List.mem_of_find?_eq_some hfound) hr hkey]

theorem forall_mem_updateWhere {Q : ρ → Prop} (h : ∀ r ∈ rows, Q r)
    (hf : ∀ r ∈ rows, p r = true → Q (f r)) : ∀ r ∈ updateWhere p f rows, Q r := by
  intro r hr
  rcases mem_updateWhere.mp hr with ⟨r₀, hr₀, hp, rfl⟩ | ⟨hr, -⟩
  · exact hf r₀ hr₀ hp
  · exact h r hr

theorem countP_updateWhere_le {q : ρ → Bool}
    (hf : ∀ r ∈ rows, p r = true → q (f r) = true → q r = true) :
    (updateWhere p f rows).countP q ≤ rows.countP q := by
  rw [updateWhere, List.countP_map]
  refine List.countP_mono_left fun r hmem hr => ?_
  rw [Function.comp_apply] at hr
  split at hr
  · next hp => exact hf r hmem hp hr
  · exact hr

variable {id : ρ → ι}

theorem countP_updateWhere_id_le [DecidableEq ι] {q : ρ → Bool} (hid : (rows.map id).Nodup) (i : ι) :
    (updateWhere (fun r => decide (id r = i)) f rows).countP q ≤
      (rows.countP fun r => q r && decide (id r ≠ i)) + 1 := by
  induction rows with
  | nil => exact Nat.zero_le _
  | cons r rows ih =>
    obtain ⟨hnew, hrest⟩ := List.nodup_cons.mp hid
    rw [updateWhere, List.map_cons, ← updateWhere, List.countP_cons, List.countP_cons]
    by_cases hr : id r = i
    · -- No other row has the id.
      have hother : ∀ r' ∈ rows, id r' ≠ i := fun r' hr' heq =>
        hnew (List.mem_map.mpr ⟨r', hr', heq.trans hr.symm⟩)
      have hsame : (rows.countP fun r => q r && decide (id r ≠ i)) = rows.countP q :=
        List.countP_congr fun r' hr' => by simp [hother r' hr']
      rw [updateWhere_eq_self fun r' hr' => decide_eq_false (hother r' hr'), hsame,
        if_pos (decide_eq_true hr)]
      split <;> split <;> omega
    · have hih := ih hrest
      have hhead : (q r && decide (id r ≠ i)) = q r := by simp [hr]
      rw [if_neg (show ¬ decide (id r = i) = true by simpa using hr), hhead]
      omega

/-! ## Partial Unique Indexes -/

variable {key : ρ → Option κ}

theorem uniqueWhere_iff_of_ids (hid : (rows.map id).Nodup) :
    UniqueWhere key rows ↔
      ∀ a ∈ rows, ∀ b ∈ rows, id a ≠ id b → ∀ k, key a = some k → key b ≠ some k := by
  have hpair : rows.Pairwise fun a b => id a ≠ id b := List.pairwise_map.mp hid
  have hinj : ∀ a ∈ rows, ∀ b ∈ rows, a ≠ b → id a ≠ id b := fun a ha b hb hab heq =>
    hab (List.inj_on_of_nodup_map hid ha hb heq)
  rw [UniqueWhere, List.Nodup, List.pairwise_filterMap]
  constructor
  · intro h a ha b hb hab k hka hkb
    have : Std.Symm fun a b : ρ => ∀ k, key a = some k → ∀ k', key b = some k' → k ≠ k' :=
      ⟨fun a b hR k hk k' hk' heq => hR k' hk' k hk heq.symm⟩
    have hne : a ≠ b := fun heq => hab (congrArg id heq)
    exact h.forall ha hb hne k hka k hkb rfl
  · intro h
    refine (List.Nodup.of_map id hid).pairwise_of_forall_ne fun a ha b hb hab k hka k' hkb hkk => ?_
    exact h a ha b hb (hinj a ha b hb hab) k hka (hkk ▸ hkb)

theorem uniqueWhere_some {g : ρ → κ} :
    UniqueWhere (fun r => some (g r)) rows ↔ (rows.map g).Nodup := by
  rw [UniqueWhere, ← List.filterMap_eq_map]
  rfl

theorem uniqueWhere_append_iff {new : List ρ} :
    UniqueWhere key (rows ++ new) ↔
      UniqueWhere key rows ∧ UniqueWhere key new ∧
        ∀ r ∈ rows, ∀ r' ∈ new, ∀ k, key r = some k → key r' ≠ some k := by
  rw [UniqueWhere, List.filterMap_append, List.nodup_append]
  refine and_congr_right fun _ => and_congr_right fun _ => ?_
  simp only [List.mem_filterMap]
  constructor
  · intro h r hr r' hr' k hk hk'
    exact h k ⟨r, hr, hk⟩ k ⟨r', hr', hk'⟩ rfl
  · rintro h k ⟨r, hr, hk⟩ k' ⟨r', hr', hk'⟩ rfl
    exact h r hr r' hr' k hk hk'

theorem uniqueWhere_concat_iff :
    UniqueWhere key (rows ++ [r]) ↔
      UniqueWhere key rows ∧ ∀ k, key r = some k → ∀ r' ∈ rows, key r' ≠ some k := by
  have hsingle : UniqueWhere key [r] := by
    cases hr : key r <;> simp [UniqueWhere, hr]
  rw [uniqueWhere_append_iff, and_iff_right hsingle]
  refine and_congr_right fun _ => ⟨fun h k hk r' hr' hk' => ?_, fun h r' hr' r'' hr'' k hk' hk => ?_⟩
  · exact h r' hr' r (by simp) k hk' hk
  · obtain rfl := List.mem_singleton.mp hr''
    exact h k hk r' hr' hk'

theorem uniqueWhere_updateWhere_iff [DecidableEq ι] {i : ι} (hid : (rows.map id).Nodup)
    (hf : ∀ r, id (f r) = id r) (huniq : UniqueWhere key rows) :
    UniqueWhere key (updateWhere (fun r => decide (id r = i)) f rows) ↔
      ∀ r₀ ∈ rows, id r₀ = i → ∀ r ∈ rows, id r ≠ i → ∀ k, key (f r₀) = some k →
        key r ≠ some k := by
  have hid' : ((updateWhere (fun r => decide (id r = i)) f rows).map id).Nodup := by
    rwa [map_updateWhere id hf]
  rw [uniqueWhere_iff_of_ids hid']
  have hold := (uniqueWhere_iff_of_ids hid).mp huniq
  constructor
  · intro h r₀ hr₀ hi r hr hri k hk
    refine h (f r₀) ?_ r ?_ ?_ k hk
    · exact mem_updateWhere.mpr (.inl ⟨r₀, hr₀, by simpa using hi, rfl⟩)
    · exact mem_updateWhere.mpr (.inr ⟨hr, by simpa using hri⟩)
    · rw [hf, hi]
      exact fun h => hri h.symm
  · intro h a ha b hb hab k hka hkb
    rcases mem_updateWhere.mp ha with ⟨a₀, ha₀, hia, rfl⟩ | ⟨ha, hia⟩ <;>
      rcases mem_updateWhere.mp hb with ⟨b₀, hb₀, hib, rfl⟩ | ⟨hb, hib⟩ <;>
      simp only [decide_eq_true_eq, decide_eq_false_iff_not] at hia hib
    · simp [hf, hia, hib] at hab
    · exact h a₀ ha₀ hia b hb hib k hka hkb
    · exact h b₀ hb₀ hib a ha hia k hkb hka
    · exact hold a ha b hb hab k hka hkb

theorem pairwise_updateWhere_iff [DecidableEq ι] {R : ρ → ρ → Prop} {i : ι}
    (hR : ∀ r r', R r r' → R r' r) (hid : (rows.map id).Nodup) (hrows : rows.Pairwise R) :
    (updateWhere (fun r => decide (id r = i)) f rows).Pairwise R ↔
      ∀ r₀ ∈ rows, id r₀ = i → ∀ r ∈ rows, id r ≠ i → R (f r₀) r := by
  by_cases hi : ∃ r₀ ∈ rows, id r₀ = i
  · obtain ⟨r₀, hr₀, hi⟩ := hi
    obtain ⟨front, rest, rfl⟩ := List.append_of_mem hr₀
    rw [List.map_append, List.map_cons, List.nodup_middle, List.nodup_cons, ← List.map_append,
      List.mem_map, not_exists] at hid
    have hother : ∀ r ∈ front ++ rest, id r ≠ i := fun r hr heq =>
      hid.1 r ⟨hr, heq.trans hi.symm⟩
    have hkeep : ∀ part : List ρ, part ⊆ front ++ rest →
        updateWhere (fun r => decide (id r = i)) f part = part := fun part hpart =>
      updateWhere_eq_self fun r hr => decide_eq_false (hother r (hpart hr))
    have hupdate : updateWhere (fun r => decide (id r = i)) f (front ++ r₀ :: rest)
        = front ++ f r₀ :: rest := by
      have hfront := hkeep front (by simp)
      have hrest := hkeep rest (by simp)
      rw [updateWhere] at hfront hrest ⊢
      rw [List.map_append, List.map_cons, hfront, hrest, if_pos (decide_eq_true hi)]
    rw [hupdate, List.pairwise_middle (@hR), List.pairwise_cons]
    rw [List.pairwise_middle (@hR), List.pairwise_cons] at hrows
    rw [and_iff_left hrows.2]
    constructor
    · intro h r hr hri r' hr' hri'
      have heq : r = r₀ := by
        rcases List.mem_append.mp hr with hr | hr
        · exact absurd hri (hother r (List.mem_append_left _ hr))
        · rcases List.mem_cons.mp hr with rfl | hr
          · rfl
          · exact absurd hri (hother r (List.mem_append_right _ hr))
      subst heq
      refine h r' ?_
      rcases List.mem_append.mp hr' with hr' | hr'
      · exact List.mem_append_left _ hr'
      · rcases List.mem_cons.mp hr' with rfl | hr'
        · exact absurd hi hri'
        · exact List.mem_append_right _ hr'
    · intro h r hr
      refine h r₀ hr₀ hi r ?_ (hother r hr)
      rcases List.mem_append.mp hr with hr | hr
      · exact List.mem_append_left _ hr
      · exact List.mem_append_right _ (List.mem_cons_of_mem _ hr)
  · rw [updateWhere_eq_self fun r hr => decide_eq_false fun h => hi ⟨r, hr, h⟩]
    exact iff_of_true hrows fun r₀ hr₀ h => absurd ⟨r₀, hr₀, h⟩ hi

theorem UniqueWhere.updateWhere_of_retire (h : UniqueWhere key rows)
    (hkey : ∀ r ∈ rows, p r = true → key (f r) = none ∨ key (f r) = key r) :
    UniqueWhere key (updateWhere p f rows) := by
  refine h.sublist ?_
  induction rows with
  | nil => exact List.Sublist.refl _
  | cons r rows ih =>
    have htail := ih (h.sublist (by
      rw [List.filterMap_cons]
      split
      · exact List.Sublist.refl _
      · exact List.sublist_cons_self _ _)) fun r' hr' => hkey r' (List.mem_cons_of_mem _ hr')
    rw [updateWhere, List.map_cons, ← updateWhere]
    by_cases hp : p r = true
    · rcases hkey r (by simp) hp with hnone | hsame
      · rw [if_pos hp, List.filterMap_cons_none hnone, List.filterMap_cons]
        split
        · exact htail
        · exact htail.cons _
      · rw [if_pos hp, List.filterMap_cons, List.filterMap_cons, hsame]
        split
        · exact htail
        · exact htail.cons_cons _
    · rw [if_neg hp, List.filterMap_cons, List.filterMap_cons]
      split
      · exact htail
      · exact htail.cons_cons _

theorem UniqueWhere.length_filter_le_one {k : κ} (h : UniqueWhere key rows)
    (hp : ∀ r ∈ rows, p r = true → key r = some k) : (rows.filter p).length ≤ 1 := by
  have hkeys : (rows.filter p).filterMap key = List.replicate (rows.filter p).length k := by
    rw [← List.map_const', ← List.filterMap_eq_map]
    refine List.filterMap_congr fun r hr => ?_
    obtain ⟨hmem, hpr⟩ := List.mem_filter.mp hr
    exact hp r hmem hpr
  have hnodup : ((rows.filter p).filterMap key).Nodup :=
    h.sublist (List.filter_sublist.filterMap key)
  rw [hkeys] at hnodup
  exact List.nodup_replicate.mp hnodup

theorem UniqueWhere.eq_of_key [DecidableEq κ] {a b : ρ} {k : κ} (h : UniqueWhere key rows)
    (ha : a ∈ rows) (hb : b ∈ rows) (hka : key a = some k) (hkb : key b = some k) : a = b := by
  have hlength := h.length_filter_le_one (p := fun r => decide (key r = some k)) fun r _ hr =>
    of_decide_eq_true hr
  have ha' : a ∈ rows.filter fun r => decide (key r = some k) := by simp [ha, hka]
  have hb' : b ∈ rows.filter fun r => decide (key r = some k) := by simp [hb, hkb]
  match hfilter : rows.filter fun r => decide (key r = some k), hlength with
  | [], _ => simp [hfilter] at ha'
  | [r], _ =>
    rw [hfilter, List.mem_singleton] at ha' hb'
    rw [ha', hb']

theorem UniqueWhere.find?_eq_some [DecidableEq κ] {k : κ} (h : UniqueWhere key rows)
    (hp : ∀ r, p r = true ↔ key r = some k) (hr : r ∈ rows) (hk : key r = some k) :
    rows.find? p = some r := by
  cases hfound : rows.find? p with
  | none => exact absurd ((hp r).mpr hk) (List.find?_eq_none.mp hfound r hr)
  | some r' =>
    have hkey := (hp r').mp (List.find?_some hfound)
    rw [h.eq_of_key (List.mem_of_find?_eq_some hfound) hr hkey hk]

/-- How many rows carry the key `k`. -/
def occupancy [DecidableEq κ] (key : ρ → Option κ) (k : κ) (rows : List ρ) : ℕ :=
  (rows.filterMap key).count k

theorem occupancy_eq_one_iff [DecidableEq κ] {k : κ} (h : UniqueWhere key rows) :
    occupancy key k rows = 1 ↔ ∃ r ∈ rows, key r = some k := by
  rw [occupancy, ← List.mem_filterMap]
  constructor
  · intro hone
    exact List.count_pos_iff.mp (by omega)
  · exact List.count_eq_one_of_mem h

/-! ## Rows That Persist -/

/-- Every row of `rows` has a successor in `rows'`. -/
def Persist (R : ρ → ρ → Prop) (rows rows' : List ρ) : Prop :=
  ∀ r ∈ rows, ∃ r' ∈ rows', R r r'

instance {R : ρ → ρ → Prop} [IsPreorder ρ R] : IsPreorder (List ρ) (Persist R) where
  refl _ r hr := ⟨r, hr, refl_of R r⟩
  trans rows₁ rows₂ rows₃ h₁ h₂ r hr := by
    obtain ⟨r', hr', hrr'⟩ := h₁ r hr
    obtain ⟨r'', hr'', hrr''⟩ := h₂ r' hr'
    exact ⟨r'', hr'', trans_of R hrr' hrr''⟩

theorem Persist.append (R : ρ → ρ → Prop) [IsPreorder ρ R] (rows new : List ρ) :
    Persist R rows (rows ++ new) :=
  fun r hr => ⟨r, List.mem_append_left _ hr, refl_of R r⟩

theorem Persist.updateWhere {R : ρ → ρ → Prop} [IsPreorder ρ R]
    (hf : ∀ r ∈ rows, p r = true → R r (f r)) : Persist R rows (updateWhere p f rows) := by
  intro r hr
  by_cases hp : p r = true
  · exact ⟨f r, mem_updateWhere.mpr (.inl ⟨r, hr, hp, rfl⟩), hf r hr hp⟩
  · exact ⟨r, mem_updateWhere.mpr (.inr ⟨hr, by simpa using hp⟩), refl_of R r⟩

/-! ## Rows That Change One by One -/

section rowwise

variable {R : ρ → ρ → Prop} {rows rows' : List ρ}

theorem persist_of_forall₂ (h : List.Forall₂ R rows rows') : Persist R rows rows' := by
  induction h with
  | nil => simp [Persist]
  | cons hr _ ih =>
    intro r₀ hr₀
    rcases List.mem_cons.mp hr₀ with rfl | hr₀
    · exact ⟨_, List.mem_cons_self, hr⟩
    · obtain ⟨r', hr', hR⟩ := ih r₀ hr₀
      exact ⟨r', List.mem_cons_of_mem _ hr', hR⟩

theorem exists_mem_of_forall₂ (h : List.Forall₂ R rows rows') {r' : ρ} (hr' : r' ∈ rows') :
    ∃ r ∈ rows, R r r' :=
  persist_of_forall₂ (R := fun r' r => R r r') h.flip r' hr'

theorem map_eq_of_forall₂ {g : ρ → κ} (hg : ∀ r r', R r r' → g r' = g r)
    (h : List.Forall₂ R rows rows') : rows'.map g = rows.map g := by
  induction h with
  | nil => rfl
  | cons hr _ ih => rw [List.map_cons, List.map_cons, hg _ _ hr, ih]

theorem forall₂_updateWhere {p : ρ → Bool} {f : ρ → ρ} (hf : ∀ r, p r = true → R r (f r))
    (hself : ∀ r, p r = false → R r r) (rows : List ρ) :
    List.Forall₂ R rows (updateWhere p f rows) := by
  rw [updateWhere, List.forall₂_map_right_iff, List.forall₂_same]
  intro r _
  by_cases hp : p r = true
  · simpa [hp] using hf r hp
  · simpa [hp] using hself r (by simpa using hp)

end rowwise

/-! ## Rows That Stay Under Their Key -/

/-- The row that a key finds is replaced by one that is related to it. -/
def Lookup [DecidableEq κ] (g : ρ → κ) (R : ρ → ρ → Prop) (rows rows' : List ρ) : Prop :=
  ∀ k r, rows.find? (fun r => decide (g r = k)) = some r →
    ∃ r', rows'.find? (fun r => decide (g r = k)) = some r' ∧ R r r'

section lookup

variable [DecidableEq κ] {g : ρ → κ} {R : ρ → ρ → Prop} [IsPreorder ρ R]

instance : IsPreorder (List ρ) (Lookup g R) where
  refl _ k r hr := ⟨r, hr, refl_of R r⟩
  trans rows₁ rows₂ rows₃ h₁ h₂ k r hr := by
    obtain ⟨r', hr', hrr'⟩ := h₁ k r hr
    obtain ⟨r'', hr'', hrr''⟩ := h₂ k r' hr'
    exact ⟨r'', hr'', trans_of R hrr' hrr''⟩

theorem Lookup.append (rows new : List ρ) : Lookup g R rows (rows ++ new) := by
  intro k r hr
  refine ⟨r, ?_, refl_of R r⟩
  rw [List.find?_append, hr]
  rfl

theorem Lookup.updateWhere {p : ρ → Bool} {f : ρ → ρ} {rows : List ρ} (hg : ∀ r, g (f r) = g r)
    (hf : ∀ r, p r = true → R r (f r)) : Lookup g R rows (updateWhere p f rows) := by
  intro k r hr
  refine ⟨if p r then f r else r, ?_, ?_⟩
  · rw [find?_updateWhere hg, hr]
    rfl
  · split
    · next hp => exact hf r hp
    · exact refl_of R r

end lookup

/-! ## Self-Referencing Foreign Keys -/

variable {ref : ρ → Option ι}

theorem not_selfReferencing_updateWhere {i : ι} (hf : ∀ r, id (f r) = id r) (hr : r ∈ rows)
    (hp : p r = true) (href : ref (f r) = some i) (hi : i ∉ rows.map id) :
    ¬ SelfReferencing id ref (updateWhere p f rows) := by
  intro h
  have hmem : f r ∈ updateWhere p f rows := mem_updateWhere.mpr (.inl ⟨r, hr, hp, rfl⟩)
  have := h (f r) hmem i href
  rw [map_updateWhere id hf] at this
  exact hi this

theorem SelfReferencing.updateWhere (h : SelfReferencing id ref rows) (hf : ∀ r, id (f r) = id r)
    (href : ∀ r ∈ rows, p r = true → ∀ i ∈ ref (f r), i ∈ rows.map id) :
    SelfReferencing id ref (updateWhere p f rows) := by
  intro r hr i hi
  rw [map_updateWhere id hf]
  rcases mem_updateWhere.mp hr with ⟨r₀, hr₀, hp, rfl⟩ | ⟨hr, -⟩
  · exact href r₀ hr₀ hp i hi
  · exact h r hr i hi

theorem SelfReferencing.concat (h : SelfReferencing id ref rows)
    (href : ∀ i ∈ ref r, i ∈ rows.map id) : SelfReferencing id ref (rows ++ [r]) := by
  intro r' hr' i hi
  rw [List.map_append, List.mem_append]
  rcases List.mem_append.mp hr' with hr' | hr'
  · exact .inl (h r' hr' i hi)
  · obtain rfl := List.mem_singleton.mp hr'
    exact .inl (href i hi)

/-! ## Transactions -/

/-- A database transaction: it either yields a result with the store it leaves, or raises and
leaves the store as it was. -/
abbrev Transaction (σ ε : Type) := StateT σ (Except ε)

theorem except_bind_eq_ok_iff {x : Except ε α} {f : α → Except ε β} {b : β} :
    (x >>= f) = .ok b ↔ ∃ a, x = .ok a ∧ f a = .ok b := by
  cases x with
  | error e => simp [bind, Except.bind]
  | ok a => simp [bind, Except.bind]

variable {f : α → Transaction σ ε β} {t : Transaction σ ε α}

theorem Transaction.bind_eq_ok_iff {s s' : σ} {b : β} :
    (t >>= f) s = .ok (b, s') ↔ ∃ a s₁, t s = .ok (a, s₁) ∧ f a s₁ = .ok (b, s') := by
  change ((t s) >>= fun p => f p.1 p.2) = .ok (b, s') ↔ _
  cases h : t s with
  | error e => simp [bind, Except.bind]
  | ok p =>
    obtain ⟨a, s₁⟩ := p
    constructor
    · exact fun hb => ⟨a, s₁, rfl, hb⟩
    · rintro ⟨a', s₁', heq, hb⟩
      cases heq
      exact hb

@[simp]
theorem Transaction.pure_eq_ok_iff {s s' : σ} {a b : α} :
    (pure a : Transaction σ ε α) s = .ok (b, s') ↔ a = b ∧ s = s' := by
  change Except.ok (a, s) = Except.ok (b, s') ↔ _
  simp

theorem Transaction.bind_eq_error {s : σ} {e : ε} (h : t s = .error e) :
    (t >>= f) s = .error e := by
  change ((t s) >>= fun p => f p.1 p.2) = .error e
  rw [h]
  rfl

theorem Transaction.bind_eq_of_ok {s s₁ : σ} {a : α} (h : t s = .ok (a, s₁)) :
    (t >>= f) s = f a s₁ := by
  change ((t s) >>= fun p => f p.1 p.2) = _
  rw [h]
  rfl

/-- Wherever the transaction commits, it relates the stores before and after by `R`. -/
def Transaction.Within (R : σ → σ → Prop) (t : Transaction σ ε α) : Prop :=
  ∀ s a s', t s = .ok (a, s') → R s s'

namespace Transaction

variable {R : σ → σ → Prop} [IsPreorder σ R]

theorem within_pure (a : α) : (pure a : Transaction σ ε α).Within R := by
  rintro s b s' h
  obtain ⟨-, rfl⟩ := pure_eq_ok_iff.mp h
  exact refl_of R s

omit [IsPreorder σ R] in
theorem within_throw (e : ε) : (throw e : Transaction σ ε α).Within R := by
  rintro s a s' h
  cases h

theorem within_get : (get : Transaction σ ε σ).Within R := by
  rintro s a s' h
  cases h
  exact refl_of R s

omit [IsPreorder σ R] in
theorem within_modify {f : σ → σ} (hf : ∀ s, R s (f s)) :
    (modify f : Transaction σ ε Unit).Within R := by
  rintro s a s' h
  cases h
  exact hf s

theorem within_bind {t : Transaction σ ε α} {f : α → Transaction σ ε β} (ht : t.Within R)
    (hf : ∀ a, (f a).Within R) : (t >>= f).Within R := by
  intro s b s' h
  obtain ⟨a, s₁, h₁, h₂⟩ := bind_eq_ok_iff.mp h
  exact trans_of R (ht s a s₁ h₁) (hf a s₁ b s' h₂)

end Transaction

/-- A table: where its rows live in the store, and its declared constraints. -/
structure Table (σ ρ : Type) where
  rows : σ → List ρ
  setRows : List ρ → σ → σ
  /-- The constraints checked after every statement on the table. -/
  constraints : List (Constraint ρ)

namespace Table

variable (T : Table σ ρ)

/-- The rows meet all declared constraints of the table. -/
def Accepts (rows : List ρ) : Prop :=
  ∀ c ∈ T.constraints, c.holds rows = true

/-- The declared constraints of the table hold in a store. -/
def Holds (s : σ) : Prop :=
  T.Accepts (T.rows s)

instance (rows : List ρ) : Decidable (T.Accepts rows) :=
  inferInstanceAs (Decidable (∀ c ∈ T.constraints, c.holds rows = true))

instance (s : σ) : Decidable (T.Holds s) :=
  inferInstanceAs (Decidable (T.Accepts (T.rows s)))

/-- Run one statement: apply the change and check every constraint of the table. -/
def statement [OfViolation ε] (change : List ρ → List ρ) : Transaction σ ε Unit := fun s =>
  match T.constraints.find? fun c => !c.holds (change (T.rows s)) with
  | some c => .error (OfViolation.ofViolation c.violation)
  | none => .ok ((), T.setRows (change (T.rows s)) s)

/-- `INSERT` of several rows in one statement. -/
def insertMany [OfViolation ε] (new : List ρ) : Transaction σ ε Unit :=
  T.statement fun rows => rows ++ new

/-- `INSERT` of one row. -/
def insert [OfViolation ε] (r : ρ) : Transaction σ ε Unit :=
  T.insertMany [r]

/-- `UPDATE` of the rows that match a predicate. -/
def update [OfViolation ε] (p : ρ → Bool) (f : ρ → ρ) : Transaction σ ε Unit :=
  T.statement (updateWhere p f)

theorem statement_eq_ok_iff [OfViolation ε] {change : List ρ → List ρ} {s s' : σ} :
    (T.statement change : Transaction σ ε Unit) s = .ok ((), s') ↔
      T.Accepts (change (T.rows s)) ∧ s' = T.setRows (change (T.rows s)) s := by
  rw [statement]
  cases h : T.constraints.find? fun c => !c.holds (change (T.rows s)) with
  | some c =>
    have hc := List.find?_some h
    have hmem := List.mem_of_find?_eq_some h
    simp only [reduceCtorEq, false_iff, not_and]
    intro hall
    simp [hall c hmem] at hc
  | none =>
    have hall : ∀ c ∈ T.constraints, c.holds (change (T.rows s)) = true := by
      simpa using h
    simp only [Except.ok.injEq, Prod.mk.injEq, true_and]
    exact ⟨fun h => ⟨hall, h.symm⟩, fun h => h.2.symm⟩

theorem statement_eq_error [OfViolation ε] {change : List ρ → List ρ} {s : σ} {v : Violation}
    (hbroken : ∃ c ∈ T.constraints, c.holds (change (T.rows s)) = false)
    (hkind : ∀ c ∈ T.constraints, c.holds (change (T.rows s)) = false → c.violation = v) :
    (T.statement change : Transaction σ ε Unit) s = .error (OfViolation.ofViolation v) := by
  rw [statement]
  cases h : T.constraints.find? fun c => !c.holds (change (T.rows s)) with
  | some c =>
    have hc : c.holds (change (T.rows s)) = false := by simpa using List.find?_some h
    simp only [hkind c (List.mem_of_find?_eq_some h) hc]
  | none =>
    obtain ⟨c, hmem, hc⟩ := hbroken
    have hall : ∀ c ∈ T.constraints, c.holds (change (T.rows s)) = true := by simpa using h
    simp [hall c hmem] at hc

theorem insertMany_eq_ok_iff [OfViolation ε] {new : List ρ} {s s' : σ} :
    (T.insertMany new : Transaction σ ε Unit) s = .ok ((), s') ↔
      T.Accepts (T.rows s ++ new) ∧ s' = T.setRows (T.rows s ++ new) s := by
  rw [insertMany, statement_eq_ok_iff]

theorem insert_eq_ok_iff [OfViolation ε] {r : ρ} {s s' : σ} :
    (T.insert r : Transaction σ ε Unit) s = .ok ((), s') ↔
      T.Accepts (T.rows s ++ [r]) ∧ s' = T.setRows (T.rows s ++ [r]) s := by
  rw [insert, insertMany_eq_ok_iff]

theorem update_eq_ok_iff [OfViolation ε] {p : ρ → Bool} {f : ρ → ρ} {s s' : σ} :
    (T.update p f : Transaction σ ε Unit) s = .ok ((), s') ↔
      T.Accepts (updateWhere p f (T.rows s)) ∧
        s' = T.setRows (updateWhere p f (T.rows s)) s := by
  rw [update, statement_eq_ok_iff]

theorem within_insertMany [OfViolation ε] {R : σ → σ → Prop} {new : List ρ}
    (h : ∀ s, T.Accepts (T.rows s ++ new) → R s (T.setRows (T.rows s ++ new) s)) :
    (T.insertMany new : Transaction σ ε Unit).Within R := by
  intro s a s' hs
  obtain ⟨hacc, rfl⟩ := T.insertMany_eq_ok_iff.mp hs
  exact h s hacc

theorem within_insert [OfViolation ε] {R : σ → σ → Prop} {r : ρ}
    (h : ∀ s, T.Accepts (T.rows s ++ [r]) → R s (T.setRows (T.rows s ++ [r]) s)) :
    (T.insert r : Transaction σ ε Unit).Within R :=
  T.within_insertMany h

theorem within_update [OfViolation ε] {R : σ → σ → Prop} {p : ρ → Bool} {f : ρ → ρ}
    (h : ∀ s, T.Accepts (updateWhere p f (T.rows s)) →
      R s (T.setRows (updateWhere p f (T.rows s)) s)) :
    (T.update p f : Transaction σ ε Unit).Within R := by
  intro s a s' hs
  obtain ⟨hacc, rfl⟩ := T.update_eq_ok_iff.mp hs
  exact h s hacc

theorem update_eq_ok_of_no_match [OfViolation ε] {p : ρ → Bool} {f : ρ → ρ} {s : σ}
    (hT : T.Holds s) (hp : ∀ r ∈ T.rows s, p r = false) (hset : T.setRows (T.rows s) s = s) :
    (T.update p f : Transaction σ ε Unit) s = .ok ((), s) := by
  rw [update_eq_ok_iff, updateWhere_eq_self hp]
  exact ⟨hT, hset.symm⟩

end Table

end Relational
