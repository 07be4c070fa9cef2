import AudioBook.Concurrent.Machine
import AudioBook.Pagination.SortKey
import AudioBook.Relational.Table
import AudioBook.Schema.Rows
import Mathlib.Data.Prod.Lex
import Mathlib.Data.String.Basic

/-!
# The Outbox Publisher

`OutboxPublisher.pollOnce`: in one transaction, lock a batch of the pending rows of
`outbox_message` that no other transaction has locked, publish them one after the other, and mark
those that were published. A row whose publication fails is left pending, and the batch goes on.
Any number of instances poll at the same time.

The marks of a transaction are seen by the others when it commits; until then they skip its rows. A
transaction that is rolled back takes its marks with it, but not what it published.
-/

namespace AudioBook.Outbox

open Relational Keyset Concurrent

inductive OutboxStatus
  | pending
  | published
  deriving DecidableEq

/-- A row of `outbox_message`, as far as the publisher selects, orders and writes it. Timestamps
are in microseconds. -/
structure OutboxRow where
  id : Id
  aggregateType : String
  aggregateId : Id
  createdAt : ℤ
  status : OutboxStatus := .pending
  publishAttempts : ℕ := 0
  lastError : Option String := none
  deriving DecidableEq

/-- `ORDER BY aggregate_type, aggregate_id, created_at`. -/
def outboxKey (row : OutboxRow) : String ×ₗ ℕ ×ₗ ℤ :=
  toLex (row.aggregateType, toLex (row.aggregateId, row.createdAt))

/-- The rows are of one aggregate. -/
def SameAggregate (a b : OutboxRow) : Prop :=
  a.aggregateType = b.aggregateType ∧ a.aggregateId = b.aggregateId

instance (a b : OutboxRow) : Decidable (SameAggregate a b) := inferInstanceAs (Decidable (_ ∧ _))

/-- The row was written before another one of its aggregate. -/
def Earlier (a b : OutboxRow) : Prop := SameAggregate a b ∧ a.createdAt < b.createdAt

instance (a b : OutboxRow) : Decidable (Earlier a b) := inferInstanceAs (Decidable (_ ∧ _))

structure Session where
  /-- The ids of the rows of the batch, which it has locked. -/
  claimed : List Id
  remaining : List OutboxRow
  /-- What it will write to the rows that it has come to: the error of a failed publication. -/
  marks : List (Id × Option String) := []
  deriving DecidableEq

structure OutboxState where
  rows : List OutboxRow := []
  sessions : List Session := []
  /-- History: the ids of the rows that were published, in order. -/
  published : List Id := []
  deriving DecidableEq

def OutboxState.isLocked (s : OutboxState) (id : Id) : Bool :=
  s.sessions.any fun session => decide (id ∈ session.claimed)

/-- `WHERE status = 'PENDING' … FOR UPDATE SKIP LOCKED`. -/
def OutboxState.candidates (s : OutboxState) : List OutboxRow :=
  s.rows.filter fun row => decide (row.status = .pending) && !s.isLocked row.id

/-- `OUTBOX_BATCH_SIZE`, which is positive. -/
structure BatchSize where
  val : ℕ
  pos : 0 < val

/-- The batch that a poll locks; rows of one key come in any order. -/
def OutboxState.batch (s : OutboxState) (scan : KeyOrder outboxKey) (batchSize : BatchSize) :
    List OutboxRow :=
  (scan.order none s.candidates).take batchSize.val

/-- The update of a row that a publication leads to. -/
def OutboxRow.mark (outcome : Option String) (row : OutboxRow) : OutboxRow :=
  match outcome with
  | none => { row with status := .published, publishAttempts := row.publishAttempts + 1 }
  | some e => { row with publishAttempts := row.publishAttempts + 1, lastError := some e }

def applyMarks (marks : List (Id × Option String)) (rows : List OutboxRow) : List OutboxRow :=
  marks.foldl (fun rows mark =>
    updateWhere (fun row => decide (row.id = mark.1)) (OutboxRow.mark mark.2) rows) rows

inductive OutboxEvent
  | insert (row : OutboxRow)
  | poll (scan : KeyOrder outboxKey)
  | publish (n : ℕ)
  /-- The publication of the next row of a poll fails. -/
  | fail (n : ℕ) (e : String)
  | commit (n : ℕ)
  /-- A poll is rolled back: the instance dies, or its transaction takes too long. -/
  | rollback (n : ℕ)

def step (batchSize : BatchSize) : OutboxEvent → OutboxState → Option OutboxState
  | .insert row, s =>
      if row.id ∉ s.rows.map OutboxRow.id ∧ row.status = .pending then
        some { s with rows := s.rows ++ [row] }
      else none
  | .poll scan, s =>
      let batch := s.batch scan batchSize
      some { s with sessions := s.sessions ++ [{
        claimed := batch.map OutboxRow.id
        remaining := batch }] }
  | .publish n, s =>
      match s.sessions[n]? with
      | none => none
      | some session =>
          match session.remaining with
          | [] => none
          | row :: rest => some { s with
              sessions := s.sessions.set n { session with
                remaining := rest, marks := session.marks ++ [(row.id, none)] }
              published := s.published ++ [row.id] }
  | .fail n e, s =>
      match s.sessions[n]? with
      | none => none
      | some session =>
          match session.remaining with
          | [] => none
          | row :: rest => some { s with
              sessions := s.sessions.set n { session with
                remaining := rest, marks := session.marks ++ [(row.id, some e)] } }
  | .commit n, s =>
      match s.sessions[n]? with
      | none => none
      | some session =>
          if session.remaining = [] then
            some { s with
              rows := applyMarks session.marks s.rows
              sessions := s.sessions.eraseIdx n }
          else none
  | .rollback n, s =>
      if n < s.sessions.length then some { s with sessions := s.sessions.eraseIdx n } else none

/-- Any number of instances that publish what any transactions write. -/
def outboxMachine (batchSize : BatchSize) : Machine OutboxState OutboxEvent where
  init s := s = {}
  step := step batchSize

end AudioBook.Outbox
