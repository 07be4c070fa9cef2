import Mathlib.Tactic.Common

/-!
# Transactions That Are Open Side by Side

A database server on which any number of transactions are open at the same time, with one table
whose key is unique. An insert of a key that is committed fails, and a statement that fails leaves
nothing to its transaction but to be rolled back. An insert of a key that another open transaction
has inserted waits until that one has ended. Everything else that a transaction writes becomes
visible with its commit.

- `Server`: the committed transactions, and the open ones.
- `Server.insert`, `Server.write`, `Server.abort`, `Server.commit`, `Server.rollback`: the statements.
- `Server.Touches`: a statement of one transaction leaves the others alone.
- `Server.Exclusive`: every key is held by one transaction at most, whether committed or open. Every
  statement keeps it.
-/

namespace Relational

variable {ρ ω κ : Type}

/-- What a transaction has written: rows with a unique key, and whatever else. -/
structure Work (ρ ω : Type) where
  rows : List ρ := []
  writes : List ω := []
  deriving DecidableEq

inductive TransactionState (ρ ω : Type)
  | active (work : Work ρ ω)
  | aborted
  | ended
  deriving DecidableEq

inductive StatementResult
  | ok
  | uniqueViolation
  | inFailedTransaction
  deriving DecidableEq, Repr

/-- A database server. Transactions are numbered in the order in which they begin. -/
structure Server (ρ ω : Type) where
  /-- The committed transactions, in the order of their commits. -/
  committed : List (ℕ × Work ρ ω) := []
  transactions : List (TransactionState ρ ω) := []
  deriving DecidableEq

section Holds

variable [DecidableEq κ] (key : ρ → κ) (k : κ)

/-- The key is among those of the rows. -/
def Work.holds (work : Work ρ ω) : Bool := work.rows.any fun row => decide (key row = k)

def TransactionState.holds : TransactionState ρ ω → Bool
  | .active work => work.holds key k
  | .aborted => false
  | .ended => false

end Holds

namespace Server

/-! ## Statements -/

/-- `BEGIN`. -/
def beginTransaction (s : Server ρ ω) : Server ρ ω :=
  { s with transactions := s.transactions ++ [.active {}] }

def setTransaction (n : ℕ) (t : TransactionState ρ ω) (s : Server ρ ω) : Server ρ ω :=
  { s with transactions := s.transactions.set n t }

/-- `INSERT` of a row; it is not possible while it waits for another transaction. -/
def insert [DecidableEq κ] (key : ρ → κ) (n : ℕ) (row : ρ) (s : Server ρ ω) :
    Option (StatementResult × Server ρ ω) :=
  match s.transactions[n]? with
  | some (.active work) =>
      if (s.committed.any fun c => c.2.holds key (key row)) || work.holds key (key row) then
        some (.uniqueViolation, s.setTransaction n .aborted)
      else if s.transactions.any fun t => t.holds key (key row) then none
      else some (.ok, s.setTransaction n (.active { work with rows := work.rows ++ [row] }))
  | some .aborted => some (.inFailedTransaction, s)
  | some .ended => none
  | none => none

def write (n : ℕ) (w : ω) (s : Server ρ ω) : Option (StatementResult × Server ρ ω) :=
  match s.transactions[n]? with
  | some (.active work) =>
      some (.ok, s.setTransaction n (.active { work with writes := work.writes ++ [w] }))
  | some .aborted => some (.inFailedTransaction, s)
  | some .ended => none
  | none => none

def abort (n : ℕ) (s : Server ρ ω) : Option (Server ρ ω) :=
  match s.transactions[n]? with
  | some (.active _) => some (s.setTransaction n .aborted)
  | some .aborted => some s
  | some .ended => none
  | none => none

/-- `COMMIT`, which rolls an aborted transaction back. -/
def commit (n : ℕ) (s : Server ρ ω) : Option (Server ρ ω) :=
  match s.transactions[n]? with
  | some (.active work) => some { s.setTransaction n .ended with committed := s.committed ++ [(n, work)] }
  | some .aborted => some (s.setTransaction n .ended)
  | some .ended => none
  | none => none

/-- `ROLLBACK`, also when the server gives a transaction up. -/
def rollback (n : ℕ) (s : Server ρ ω) : Option (Server ρ ω) :=
  match s.transactions[n]? with
  | some (.active _) => some (s.setTransaction n .ended)
  | some .aborted => some (s.setTransaction n .ended)
  | some .ended => none
  | none => none

/-! ## What a statement does -/

variable {s s' : Server ρ ω} {n : ℕ} {result : StatementResult}

@[simp]
theorem committed_setTransaction (t : TransactionState ρ ω) :
    (s.setTransaction n t).committed = s.committed := rfl

@[simp]
theorem transactions_setTransaction (t : TransactionState ρ ω) :
    (s.setTransaction n t).transactions = s.transactions.set n t := rfl

theorem getElem?_setTransaction {t : TransactionState ρ ω} (t' : TransactionState ρ ω)
    (hn : s.transactions[n]? = some t) :
    (s.setTransaction n t').transactions[n]? = some t' :=
  List.getElem?_set_self (List.getElem?_eq_some_iff.mp hn).1

theorem insert_cases [DecidableEq κ] {key : ρ → κ} {row : ρ}
    (h : s.insert key n row = some (result, s')) :
    (∃ work, s.transactions[n]? = some (.active work) ∧
        ((∃ c ∈ s.committed, c.2.holds key (key row) = true) ∨
          work.holds key (key row) = true) ∧
        result = .uniqueViolation ∧ s' = s.setTransaction n .aborted) ∨
      (∃ work, s.transactions[n]? = some (.active work) ∧
        (∀ c ∈ s.committed, ¬ c.2.holds key (key row) = true) ∧
        (∀ t ∈ s.transactions, ¬ t.holds key (key row) = true) ∧ result = .ok ∧
        s' = s.setTransaction n (.active { work with rows := work.rows ++ [row] })) ∨
      s.transactions[n]? = some .aborted ∧ result = .inFailedTransaction ∧ s' = s := by
  unfold insert at h
  split at h
  · rename_i work hn
    split at h
    · rename_i htaken
      cases h
      refine .inl ⟨work, hn, ?_, rfl, rfl⟩
      rw [Bool.or_eq_true] at htaken
      exact htaken.imp_left List.any_eq_true.mp
    · rename_i hfree
      split at h
      · cases h
      · rename_i hopen
        cases h
        refine .inr (.inl ⟨work, hn, fun c hc hheld => hfree ?_, fun t ht hheld => hopen ?_, rfl,
          rfl⟩)
        · rw [Bool.or_eq_true]
          exact .inl (List.any_eq_true.mpr ⟨c, hc, hheld⟩)
        · exact List.any_eq_true.mpr ⟨t, ht, hheld⟩
  · cases h
    exact .inr (.inr ⟨‹_›, rfl, rfl⟩)
  · cases h
  · cases h

theorem write_cases {w : ω} (h : s.write n w = some (result, s')) :
    (∃ work, s.transactions[n]? = some (.active work) ∧ result = .ok ∧
        s' = s.setTransaction n (.active { work with writes := work.writes ++ [w] })) ∨
      s.transactions[n]? = some .aborted ∧ result = .inFailedTransaction ∧ s' = s := by
  unfold write at h
  split at h
  · cases h
    exact .inl ⟨_, ‹_›, rfl, rfl⟩
  · cases h
    exact .inr ⟨‹_›, rfl, rfl⟩
  · cases h
  · cases h

theorem abort_cases (h : s.abort n = some s') :
    (∃ work, s.transactions[n]? = some (.active work) ∧ s' = s.setTransaction n .aborted) ∨
      s.transactions[n]? = some .aborted ∧ s' = s := by
  unfold abort at h
  split at h
  · cases h
    exact .inl ⟨_, ‹_›, rfl⟩
  · cases h
    exact .inr ⟨‹_›, rfl⟩
  · cases h
  · cases h

theorem commit_cases (h : s.commit n = some s') :
    (∃ work, s.transactions[n]? = some (.active work) ∧
        s' = { s.setTransaction n .ended with committed := s.committed ++ [(n, work)] }) ∨
      s.transactions[n]? = some .aborted ∧ s' = s.setTransaction n .ended := by
  unfold commit at h
  split at h
  · cases h
    exact .inl ⟨_, ‹_›, rfl⟩
  · cases h
    exact .inr ⟨‹_›, rfl⟩
  · cases h
  · cases h

theorem rollback_cases (h : s.rollback n = some s') :
    (∃ t, s.transactions[n]? = some t) ∧ s' = s.setTransaction n .ended := by
  unfold rollback at h
  split at h
  · cases h
    exact ⟨⟨_, ‹_›⟩, rfl⟩
  · cases h
    exact ⟨⟨_, ‹_›⟩, rfl⟩
  · cases h
  · cases h

/-! ## What a statement leaves alone -/

/-- Only the given transaction goes on. -/
structure Touches (n : ℕ) (s s' : Server ρ ω) : Prop where
  length : s'.transactions.length = s.transactions.length
  others : ∀ {m}, m ≠ n → s'.transactions[m]? = s.transactions[m]?
  kept : ∀ c ∈ s.committed, c ∈ s'.committed
  new : ∀ c ∈ s'.committed, c ∈ s.committed ∨ c.1 = n

theorem touches_refl (n : ℕ) (s : Server ρ ω) : Touches n s s :=
  ⟨rfl, fun _ => rfl, fun _ => id, fun _ => .inl⟩

theorem touches_setTransaction (n : ℕ) (t : TransactionState ρ ω) (s : Server ρ ω) :
    Touches n s (s.setTransaction n t) where
  length := List.length_set
  others hm := List.getElem?_set_ne (Ne.symm hm)
  kept _ := id
  new _ := .inl

theorem touches_insert [DecidableEq κ] {key : ρ → κ} {row : ρ}
    (h : s.insert key n row = some (result, s')) : Touches n s s' := by
  obtain ⟨work, -, -, -, rfl⟩ | ⟨work, -, -, -, -, rfl⟩ | ⟨-, -, rfl⟩ := insert_cases h
  · exact touches_setTransaction n _ s
  · exact touches_setTransaction n _ s
  · exact touches_refl n _

theorem touches_write {w : ω} (h : s.write n w = some (result, s')) : Touches n s s' := by
  obtain ⟨work, -, -, rfl⟩ | ⟨-, -, rfl⟩ := write_cases h
  · exact touches_setTransaction n _ s
  · exact touches_refl n _

theorem touches_abort (h : s.abort n = some s') : Touches n s s' := by
  obtain ⟨work, -, rfl⟩ | ⟨-, rfl⟩ := abort_cases h
  · exact touches_setTransaction n _ s
  · exact touches_refl n _

theorem touches_rollback (h : s.rollback n = some s') : Touches n s s' := by
  obtain ⟨-, rfl⟩ := rollback_cases h
  exact touches_setTransaction n _ s

theorem touches_commit (h : s.commit n = some s') : Touches n s s' := by
  obtain ⟨work, -, rfl⟩ | ⟨-, rfl⟩ := commit_cases h
  · refine ⟨List.length_set, fun hm => List.getElem?_set_ne (Ne.symm hm),
      fun c hc => List.mem_append_left _ hc, fun c hc => ?_⟩
    obtain hc | hc := List.mem_append.mp hc
    · exact .inl hc
    · rw [List.mem_singleton.mp hc]
      exact .inr rfl
  · exact touches_setTransaction n _ s

/-! ## Who holds a key -/

variable [DecidableEq κ] (key : ρ → κ)

/-- How many transactions have inserted a key, the committed and the active ones. -/
def holders (k : κ) (s : Server ρ ω) : ℕ :=
  s.committed.countP (fun c => c.2.holds key k) + s.transactions.countP fun t => t.holds key k

/-- No two transactions hold the same key. -/
def Exclusive (s : Server ρ ω) : Prop := ∀ k, s.holders key k ≤ 1

variable {key}

theorem exclusive_empty : Exclusive key ({} : Server ρ ω) := fun _ => Nat.zero_le 1

theorem exclusive_beginTransaction (h : Exclusive key s) : Exclusive key s.beginTransaction := by
  intro k
  have hnew : (TransactionState.active ({} : Work ρ ω)).holds key k = false := rfl
  simpa [holders, beginTransaction, List.countP_append, List.countP_singleton, hnew] using h k

theorem holders_setTransaction_le {t t' : TransactionState ρ ω} {k : κ}
    (hn : s.transactions[n]? = some t) (hle : t'.holds key k = true → t.holds key k = true) :
    (s.setTransaction n t').holders key k ≤ s.holders key k := by
  obtain ⟨hlt, rfl⟩ := List.getElem?_eq_some_iff.mp hn
  apply Nat.add_le_add_left
  rw [transactions_setTransaction, List.countP_set hlt]
  by_cases hk : t'.holds key k = true
  · have hpos : 0 < s.transactions.countP fun t => t.holds key k :=
      List.countP_pos_iff.mpr ⟨_, List.getElem_mem hlt, hle hk⟩
    rw [if_pos (hle hk), if_pos hk]
    omega
  · rw [if_neg hk]
    omega

theorem exclusive_setTransaction {t t' : TransactionState ρ ω} (h : Exclusive key s)
    (hn : s.transactions[n]? = some t) (hle : ∀ k, t'.holds key k = true → t.holds key k = true) :
    Exclusive key (s.setTransaction n t') :=
  fun k => Nat.le_trans (holders_setTransaction_le hn (hle k)) (h k)

theorem exclusive_insert {row : ρ} (h : Exclusive key s)
    (hs : s.insert key n row = some (result, s')) : Exclusive key s' := by
  obtain ⟨work, hn, -, -, rfl⟩ | ⟨work, hn, hfree, hopen, -, rfl⟩ | ⟨-, -, rfl⟩ := insert_cases hs
  · exact exclusive_setTransaction h hn fun _ => nofun
  · intro k
    by_cases hk : key row = k
    · -- Nobody held the key before.
      subst hk
      obtain ⟨hlt, -⟩ := List.getElem?_eq_some_iff.mp hn
      have hcommitted : s.committed.countP (fun c => c.2.holds key (key row)) = 0 :=
        List.countP_eq_zero.mpr hfree
      have hactive : s.transactions.countP (fun t => t.holds key (key row)) = 0 :=
        List.countP_eq_zero.mpr hopen
      simp only [holders, committed_setTransaction, transactions_setTransaction, hcommitted,
        List.countP_set hlt, hactive]
      split <;> split <;> omega
    · refine Nat.le_trans (holders_setTransaction_le hn fun hheld => ?_) (h k)
      simpa [TransactionState.holds, Work.holds, hk] using hheld
  · exact h

theorem exclusive_write {w : ω} (h : Exclusive key s) (hs : s.write n w = some (result, s')) :
    Exclusive key s' := by
  obtain ⟨work, hn, -, rfl⟩ | ⟨-, -, rfl⟩ := write_cases hs
  · exact exclusive_setTransaction h hn fun _ => id
  · exact h

theorem exclusive_abort (h : Exclusive key s) (hs : s.abort n = some s') : Exclusive key s' := by
  obtain ⟨work, hn, rfl⟩ | ⟨-, rfl⟩ := abort_cases hs
  · exact exclusive_setTransaction h hn fun _ => nofun
  · exact h

theorem exclusive_rollback (h : Exclusive key s) (hs : s.rollback n = some s') :
    Exclusive key s' := by
  obtain ⟨⟨t, hn⟩, rfl⟩ := rollback_cases hs
  exact exclusive_setTransaction h hn fun _ => nofun

theorem exclusive_commit (h : Exclusive key s) (hs : s.commit n = some s') : Exclusive key s' := by
  obtain ⟨work, hn, rfl⟩ | ⟨hn, rfl⟩ := commit_cases hs
  · intro k
    obtain ⟨hlt, hget⟩ := List.getElem?_eq_some_iff.mp hn
    have hk : s.committed.countP (fun c => c.2.holds key k) +
        s.transactions.countP (fun t => t.holds key k) ≤ 1 := h k
    have hold : s.transactions[n].holds key k = work.holds key k := by rw [hget]; rfl
    have hended : (TransactionState.ended : TransactionState ρ ω).holds key k = false := rfl
    simp only [holders, transactions_setTransaction, List.countP_append, List.countP_singleton,
      List.countP_set hlt, hold, hended, Bool.false_eq_true, if_false]
    by_cases hheld : work.holds key k = true
    · have hpos : 0 < s.transactions.countP fun t => t.holds key k :=
        List.countP_pos_iff.mpr ⟨_, List.getElem_mem hlt, hold.trans hheld⟩
      rw [if_pos hheld]
      omega
    · rw [if_neg hheld]
      omega
  · exact exclusive_setTransaction h hn fun _ => nofun

theorem Exclusive.eq_of_mem {k : κ} {c c' : ℕ × Work ρ ω} (h : Exclusive key s)
    (hc : c ∈ s.committed.filter fun c => c.2.holds key k)
    (hc' : c' ∈ s.committed.filter fun c => c.2.holds key k) : c = c' := by
  have hle : (s.committed.filter fun c => c.2.holds key k).length ≤ 1 := by
    rw [← List.countP_eq_length_filter]
    exact Nat.le_trans (Nat.le_add_right _ _) (h k)
  obtain ⟨i, hi, rfl⟩ := List.mem_iff_getElem.mp hc
  obtain ⟨j, hj, rfl⟩ := List.mem_iff_getElem.mp hc'
  congr 1
  omega

end Server

end Relational
