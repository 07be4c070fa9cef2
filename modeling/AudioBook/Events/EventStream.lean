import AudioBook.Concurrent.Machine
import AudioBook.Pagination.SortKey
import AudioBook.Schema.Rows
import Mathlib.Data.Prod.Lex

/-!
# The Event Stream

`EventStreamService.open`: a connection that polls the tail of `outbox_message` and writes a frame
for every public event of a book or a job. A timer starts a poll every interval, whether or not the
one before has come back. Each one reads from the cursor that it found when it was started, and
leaves the position of the last row that it read.

Rows are in the table from the commit of the transaction that wrote them. Their `created_at` is in
microseconds, and the cursor is a `Date`, which is in milliseconds. A connection that was closed
writes nothing more; it is where a run may end.
-/

namespace AudioBook.EventStream

open Concurrent

/-- `StreamScope.scope`. -/
inductive ScopeKind
  | book
  | job
  deriving DecidableEq

/-- What the principal of a connection may see of what it asks for. -/
structure StreamScope where
  tenantId : Id
  scope : ScopeKind
  id : Id

/-- A row of `outbox_message`, as far as the stream selects and orders by it. A frame is made of its
row alone. -/
structure OutboxTailRow where
  eventId : Id
  eventType : String
  tenantId : Id
  bookId : Option Id := none
  jobId : Option Id := none
  createdAt : ℤ
  deriving DecidableEq

/-- A `Date`: the milliseconds of a timestamp. -/
def toDate (timestamp : ℤ) : ℤ := timestamp / 1000

/-- Where the stream has come to. The event is null until there is one. -/
structure StreamCursor where
  createdAt : ℤ
  eventId : Option Id
  deriving DecidableEq

def OutboxTailRow.cursor (row : OutboxTailRow) : StreamCursor where
  createdAt := toDate row.createdAt
  eventId := some row.eventId

structure EventStreamConfig where
  replayWindowMs : ℕ
  batchSize : ℕ
  batchSize_pos : 0 < batchSize

def publicEventPrefixes : List String :=
  ["book.", "character.", "voice.", "director.", "tts.", "audio.", "chapter.", "audiobook.", "job."]

def isPublicEvent (eventType : String) : Bool :=
  publicEventPrefixes.any fun pre => eventType.startsWith pre

def StreamScope.covers (scope : StreamScope) (row : OutboxTailRow) : Bool :=
  decide (row.tenantId = scope.tenantId) &&
    match scope.scope with
    | .book => decide (row.bookId = some scope.id)
    | .job => decide (row.jobId = some scope.id)

/-- The `where` of a cursor. -/
def StreamCursor.selects (cursor : StreamCursor) (row : OutboxTailRow) : Bool :=
  match cursor.eventId with
  | none => decide (1000 * cursor.createdAt < row.createdAt)
  | some eventId => decide (1000 * cursor.createdAt < row.createdAt) ||
      (decide (row.createdAt = 1000 * cursor.createdAt) && decide (eventId < row.eventId))

/-- `ORDER BY created_at, event_id`. -/
def position (row : OutboxTailRow) : ℤ ×ₗ ℕ := toLex (row.createdAt, row.eventId)

def readTail (config : EventStreamConfig) (scope : StreamScope) (cursor : StreamCursor)
    (rows : List OutboxTailRow) : List OutboxTailRow :=
  ((rows.filter fun row => scope.covers row && cursor.selects row).insertionSort
    fun a b => position a ≤ position b).take config.batchSize

/-- Why the client is told to read its progress again. -/
inductive ResyncReason
  | outsideReplayWindow
  | unknownEventId
  deriving DecidableEq

/-- Where a connection starts, by the clock of the database and `Last-Event-ID`. -/
def resolveStartCursor (config : EventStreamConfig) (lastEventId : Option Id) (now : ℤ)
    (rows : List OutboxTailRow) : StreamCursor × Option ResyncReason :=
  match lastEventId with
  | none => (⟨toDate now, none⟩, none)
  | some lastEventId =>
      match rows.find? fun row => decide (row.eventId = lastEventId) with
      | none => (⟨toDate now, none⟩, some .unknownEventId)
      | some anchor =>
          if toDate anchor.createdAt < toDate now - config.replayWindowMs then
            (⟨toDate now, none⟩, some .outsideReplayWindow)
          else (anchor.cursor, none)

/-- Where a connection started: after an event, or else after a time. -/
structure StartPosition where
  anchor : Option OutboxTailRow
  now : ℤ
  deriving DecidableEq

def resumedFrom (config : EventStreamConfig) (lastEventId : Option Id) (now : ℤ)
    (rows : List OutboxTailRow) : Option OutboxTailRow :=
  (resolveStartCursor config lastEventId now rows).1.eventId.bind fun eventId =>
    rows.find? fun row => decide (row.eventId = eventId)

structure Poll where
  cursor : StreamCursor
  rows : Option (List OutboxTailRow) := none
  deriving DecidableEq

structure Connection where
  cursor : StreamCursor
  resync : Option ResyncReason
  polls : List Poll := []
  written : List OutboxTailRow := []
  start : StartPosition
  deriving DecidableEq

structure StreamState where
  rows : List OutboxTailRow := []
  connection : Option Connection := none
  deriving DecidableEq

inductive StreamEvent
  | commit (new : List OutboxTailRow)
  | connect (lastEventId : Option Id) (now : ℤ)
  | tick
  | read (n : ℕ)
  | deliver (n : ℕ)
  | fail (n : ℕ)

/-- The connection after a poll has gone on with the rows that it has read. -/
def Connection.deliver (c : Connection) (n : ℕ) (rows : List OutboxTailRow) : Connection :=
  { c with
    cursor := (rows.getLast?.map OutboxTailRow.cursor).getD c.cursor
    polls := c.polls.eraseIdx n
    written := c.written ++ rows.filter fun row => isPublicEvent row.eventType }

def step (config : EventStreamConfig) (scope : StreamScope) (l : StreamEvent) (s : StreamState) :
    Option StreamState :=
  match l, s.connection with
  | .commit new, _ =>
      if ((s.rows ++ new).map OutboxTailRow.eventId).Nodup then
        some { s with rows := s.rows ++ new }
      else none
  | .connect lastEventId now, none =>
      let (cursor, resync) := resolveStartCursor config lastEventId now s.rows
      some { s with connection := some {
        cursor := cursor, resync := resync
        start := ⟨resumedFrom config lastEventId now s.rows, now⟩ } }
  | .tick, some c =>
      some { s with connection := some { c with polls := c.polls ++ [{ cursor := c.cursor }] } }
  | .read n, some c =>
      match c.polls[n]? with
      | some ⟨cursor, none⟩ => some { s with connection := some { c with
          polls := c.polls.set n ⟨cursor, some (readTail config scope cursor s.rows)⟩ } }
      | _ => none
  | .deliver n, some c =>
      match c.polls[n]? with
      | some ⟨_, some rows⟩ => some { s with connection := some (c.deliver n rows) }
      | _ => none
  | .fail n, some c =>
      if n < c.polls.length then
        some { s with connection := some { c with polls := c.polls.eraseIdx n } }
      else none
  | _, _ => none

/-- A connection to the events of a book or a job, and the transactions that write them. -/
def streamMachine (config : EventStreamConfig) (scope : StreamScope) :
    Machine StreamState StreamEvent where
  init s := s = {}
  step := step config scope

end AudioBook.EventStream
