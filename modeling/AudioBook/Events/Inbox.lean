import AudioBook.Concurrent.Machine
import AudioBook.Relational.OpenTransactions
import AudioBook.Schema.Rows

/-!
# The Inbox of a Consumer

`withInbox` inserts a row for the event into the inbox and runs the handler, both in one
transaction. Deliveries of any events to any consumers run side by side, each in a transaction of
its own, and each of them may fail at any moment, before or after the server has committed.

- `inboxMachine`: the deliveries and the database server in any order of steps.
- `ExactlyOnce`: what is promised of one event and one consumer.

## Main results

* `inbox_exactlyOnce`: in every reachable state, at most one delivery's effects are committed, exactly
  one's as soon as a delivery has returned without a fault, and nothing of a duplicate.
-/

namespace AudioBook.Inbox

open Relational Concurrent

inductive InboxOutcome
  | processed
  | skipped
  | failed
  deriving DecidableEq, Repr

structure EventInbox where
  consumerName : String
  eventId : Id
  processedAt : ℕ
  outcome : InboxOutcome
  deriving DecidableEq, Repr

/-- The primary key of `event_inbox`. -/
def EventInbox.key (row : EventInbox) : String × Id := (row.consumerName, row.eventId)

/-- Where a delivery stands in `withTransaction` and `withInbox`. -/
inductive DeliveryPoint
  | inserting
  | handling
  /-- `withInbox` has returned, and `withTransaction` commits. -/
  | committing (outcome : InboxOutcome)
  /-- The server has answered the commit, and the answer is on its way. -/
  | committed (outcome : InboxOutcome)
  | returned (outcome : InboxOutcome)
  | failed
  deriving DecidableEq, Repr

/-- A delivery of an event to a consumer, with the writes that its handler has made. -/
structure Delivery (ω : Type) where
  consumerName : String
  eventId : Id
  point : DeliveryPoint := .inserting
  writes : List ω := []
  statementFailed : Bool := false

/-- The server, and the deliveries; the transaction of a delivery has its number. -/
structure InboxState (ω : Type) where
  server : Server EventInbox ω := {}
  deliveries : List (Delivery ω) := []

inductive InboxEvent (ω : Type)
  | deliver (consumerName : String) (eventId : Id)
  | insert (n processedAt : ℕ)
  | write (n : ℕ) (w : ω)
  /-- A statement of the handler fails; the handler may throw or go on. -/
  | statementFails (n : ℕ)
  | handlerReturns (n : ℕ)
  | commit (n : ℕ)
  | acknowledge (n : ℕ)
  /-- The handler throws, a statement or the commit fails, or the process dies. -/
  | fail (n : ℕ)
  /-- The server rolls a transaction back, when it is told to or when it has lost the client. -/
  | rollback (n : ℕ)

variable {ω : Type}

def Delivery.row (d : Delivery ω) (processedAt : ℕ) : EventInbox where
  consumerName := d.consumerName
  eventId := d.eventId
  processedAt
  outcome := .processed

/-- `withInbox`, after its insert: a violation of the primary key is a success. -/
def withInbox : StatementResult → DeliveryPoint
  | .ok => .handling
  | .uniqueViolation => .committing .skipped
  | .inFailedTransaction => .failed

/-- Delivery `n` has come to another point. -/
def InboxState.goOn (n : ℕ) (server : Server EventInbox ω) (d : Delivery ω) (s : InboxState ω) :
    InboxState ω where
  server
  deliveries := s.deliveries.set n d

def Delivery.begun (consumerName : String) (eventId : Id) : Delivery ω where
  consumerName
  eventId

/-- `withTransaction` begins a transaction for a new delivery. -/
def InboxState.deliver (consumerName : String) (eventId : Id) (s : InboxState ω) : InboxState ω where
  server := s.server.beginTransaction
  deliveries := s.deliveries ++ [.begun consumerName eventId]

/-- What the answer to a write of the handler is to its delivery. -/
def Delivery.wrote (w : ω) (d : Delivery ω) : StatementResult → Delivery ω
  | .ok => { d with writes := d.writes ++ [w] }
  | .uniqueViolation => { d with statementFailed := true }
  | .inFailedTransaction => { d with statementFailed := true }

def deliveryStep (s : InboxState ω) (n : ℕ) (d : Delivery ω) :
    InboxEvent ω → DeliveryPoint → Option (Server EventInbox ω × Delivery ω)
  | .insert _ processedAt, .inserting =>
      (s.server.insert EventInbox.key n (d.row processedAt)).map fun (result, server) =>
        (server, { d with point := withInbox result })
  | .write _ w, .handling =>
      (s.server.write n w).map fun (result, server) => (server, d.wrote w result)
  | .statementFails _, .handling =>
      (s.server.abort n).map fun server => (server, { d with statementFailed := true })
  | .handlerReturns _, .handling => some (s.server, { d with point := .committing .processed })
  | .commit _, .committing outcome =>
      (s.server.commit n).map fun server => (server, { d with point := .committed outcome })
  | .acknowledge _, .committed outcome => some (s.server, { d with point := .returned outcome })
  | .fail _, .returned _ => none
  | .fail _, _ => some (s.server, { d with point := .failed })
  | .rollback _, _ => (s.server.rollback n).map fun server => (server, d)
  | _, _ => none

def InboxEvent.delivery : InboxEvent ω → Option ℕ
  | .deliver _ _ => none
  | .insert n _ | .write n _ | .statementFails n | .handlerReturns n | .commit n | .acknowledge n
  | .fail n | .rollback n => some n

def inboxStep (e : InboxEvent ω) (s : InboxState ω) : Option (InboxState ω) :=
  match e with
  | .deliver consumerName eventId => some (s.deliver consumerName eventId)
  | e => do
      let n ← e.delivery
      let d ← s.deliveries[n]?
      let (server, d) ← deliveryStep s n d e d.point
      some (s.goOn n server d)

/-- Deliveries in any order of steps, on an empty inbox. -/
def inboxMachine (ω : Type) : Machine (InboxState ω) (InboxEvent ω) where
  init s := s = {}
  step := inboxStep

/-! ## What is promised -/

def Delivery.key (d : Delivery ω) : String × Id := (d.consumerName, d.eventId)

/-- The committed transactions of the deliveries of an event to a consumer. -/
def InboxState.committedFor (key : String × Id) (s : InboxState ω) :
    List (ℕ × Work EventInbox ω) :=
  s.server.committed.filter fun c => s.deliveries[c.1]?.map Delivery.key = some key

/-- A delivery has returned and no statement of its handler has failed. -/
def Delivery.Faultless (d : Delivery ω) : Prop :=
  (∃ outcome, d.point = .returned outcome) ∧ d.statementFailed = false

/-- The handler of the event takes effect once. -/
structure ExactlyOnce (key : String × Id) (s : InboxState ω) : Prop where
  /-- At most one delivery is committed, with one inbox row and all that its handler has written. -/
  atMostOnce : s.committedFor key = [] ∨ ∃ n d row, s.committedFor key = [(n, ⟨[row], d.writes⟩)] ∧
    s.deliveries[n]? = some d ∧ row.key = key ∧ d.point ≠ .inserting ∧ d.point ≠ .handling
  /-- One is, once a delivery has returned without a fault. -/
  once : (∃ d ∈ s.deliveries, d.key = key ∧ d.Faultless) → s.committedFor key ≠ []
  /-- Nothing of a delivery that was skipped is committed. -/
  skipped : ∀ n d, s.deliveries[n]? = some d → d.key = key → d.point = .returned .skipped →
    ∀ c ∈ s.server.committed, c.1 ≠ n

/-! ## The invariant -/

/-- The work of a delivery whose insert has succeeded. -/
def Delivery.Did (d : Delivery ω) (work : Work EventInbox ω) : Prop :=
  (∃ row : EventInbox, work.rows = [row] ∧ row.key = d.key) ∧ work.writes = d.writes

/-- What the point of a delivery says about its transaction. -/
structure DeliveryOk (server : Server EventInbox ω) (n : ℕ) (d : Delivery ω) : Prop where
  active : ∀ work, server.transactions[n]? = some (.active work) →
    work = {} ∧ d.writes = [] ∧ (d.point = .inserting ∨ d.point = .failed) ∨
      d.Did work ∧ (d.point = .handling ∨ d.point = .committing .processed ∨ d.point = .failed)
  aborted : server.transactions[n]? = some .aborted →
    d.point = .committing .skipped ∨ d.point = .failed ∨
      d.statementFailed = true ∧ (d.point = .handling ∨ d.point = .committing .processed)
  committed : ∀ work, (n, work) ∈ server.committed →
    d.Did work ∧ server.transactions[n]? = some .ended ∧
      (d.point = .committed .processed ∨ d.point = .returned .processed ∨ d.point = .failed)
  processed : d.point = .committed .processed ∨ d.point = .returned .processed →
    d.statementFailed = false → ∃ work, (n, work) ∈ server.committed
  skipped : d.point = .committing .skipped ∨ d.point = .committed .skipped ∨
    d.point = .returned .skipped → ∃ c ∈ server.committed, c.2.holds EventInbox.key d.key = true
  outcome : d.point ≠ .committing .failed ∧ d.point ≠ .committed .failed ∧
    d.point ≠ .returned .failed

/-- What every event keeps. -/
structure Inv (s : InboxState ω) : Prop where
  exclusive : s.server.Exclusive EventInbox.key
  length : s.server.transactions.length = s.deliveries.length
  deliveries : ∀ n d, s.deliveries[n]? = some d → DeliveryOk s.server n d
  numbered : ∀ c ∈ s.server.committed, c.1 < s.deliveries.length

variable {s s' : InboxState ω} {server : Server EventInbox ω} {n m : ℕ} {d d' : Delivery ω}

theorem DeliveryOk.of_touches (h : DeliveryOk s.server m d) (ht : Server.Touches n s.server server)
    (hm : m ≠ n) : DeliveryOk server m d where
  active work hw := h.active work (by rwa [ht.others hm] at hw)
  aborted ha := h.aborted (by rwa [ht.others hm] at ha)
  committed work hw := by
    obtain hw | hw := ht.new _ hw
    · rw [ht.others hm]
      exact h.committed work hw
    · exact absurd hw hm
  processed hp hf := (h.processed hp hf).imp fun _ => ht.kept _
  skipped hs := by
    obtain ⟨c, hc, hheld⟩ := h.skipped hs
    exact ⟨c, ht.kept c hc, hheld⟩
  outcome := h.outcome

theorem Inv.goOn (hinv : Inv s) (hn : s.deliveries[n]? = some d)
    (ht : Server.Touches n s.server server) (hexclusive : server.Exclusive EventInbox.key)
    (hok : DeliveryOk server n d') : Inv (s.goOn n server d') where
  exclusive := hexclusive
  length := by
    rw [InboxState.goOn, ht.length, hinv.length, List.length_set]
  deliveries m e he := by
    by_cases hm : m = n
    · subst hm
      have hlt := (List.getElem?_eq_some_iff.mp hn).1
      have he : (s.deliveries.set m d')[m]? = some e := he
      rw [List.getElem?_set_self hlt] at he
      cases he
      exact hok
    · have he : (s.deliveries.set n d')[m]? = some e := he
      rw [List.getElem?_set_ne (Ne.symm hm)] at he
      exact (hinv.deliveries m e he).of_touches ht hm
  numbered c hc := by
    have hlength : (s.deliveries.set n d').length = s.deliveries.length := List.length_set
    show c.1 < (s.deliveries.set n d').length
    rw [hlength]
    obtain hc | hc := ht.new c hc
    · exact hinv.numbered c hc
    · rw [hc]
      exact (List.getElem?_eq_some_iff.mp hn).1

/-! ## What a delivery does -/

theorem DeliveryOk.not_committed (hok : DeliveryOk server n d)
    (hp : d.point = .inserting ∨ d.point = .handling ∨ ∃ o, d.point = .committing o)
    (work : Work EventInbox ω) : (n, work) ∉ server.committed := by
  intro hw
  obtain ⟨-, -, hpoint⟩ := hok.committed work hw
  obtain hp | hp | ⟨o, hp⟩ := hp <;> simp [hp] at hpoint

theorem ok_insert {processedAt : ℕ} {result : StatementResult} (hp : d.point = .inserting)
    (hok : DeliveryOk s.server n d)
    (h : s.server.insert EventInbox.key n (d.row processedAt) = some (result, server)) :
    DeliveryOk server n { d with point := withInbox result } := by
  have hnot := hok.not_committed (.inl hp)
  obtain ⟨work, hn, htaken, rfl, rfl⟩ | ⟨work, hn, -, -, rfl, rfl⟩ | ⟨hn, -, -⟩ :=
    Server.insert_cases h
  · have hset := Server.getElem?_setTransaction .aborted hn
    have hwork : work = {} := by
      obtain ⟨hwork, -, -⟩ | ⟨-, hpoint⟩ := hok.active work hn
      · exact hwork
      · simp [hp] at hpoint
    refine ⟨fun w hw => ?_, fun _ => .inl rfl, fun w hw => absurd hw (hnot w), by simp [withInbox],
      fun _ => ?_, by simp [withInbox]⟩
    · rw [hset] at hw
      cases hw
    · -- The transaction had inserted nothing, so that the key is a committed one.
      obtain htaken | hown := htaken
      · exact htaken
      · rw [hwork] at hown
        cases hown
  · have hset := Server.getElem?_setTransaction
      (.active { work with rows := work.rows ++ [d.row processedAt] }) hn
    refine ⟨fun w hw => ?_, fun ha => ?_, fun w hw => absurd hw (hnot w), by simp [withInbox],
      by simp [withInbox], by simp [withInbox]⟩
    · rw [hset] at hw
      cases hw
      obtain ⟨rfl, hwrites, -⟩ | ⟨-, hpoint⟩ := hok.active work hn
      · exact .inr ⟨⟨⟨d.row processedAt, rfl, rfl⟩, hwrites.symm⟩, .inl rfl⟩
      · simp [hp] at hpoint
    · rw [hset] at ha
      cases ha
  · have := hok.aborted hn
    simp [hp] at this

theorem ok_write {w : ω} {result : StatementResult} (hp : d.point = .handling)
    (hok : DeliveryOk s.server n d) (h : s.server.write n w = some (result, server)) :
    DeliveryOk server n (d.wrote w result) := by
  have hnot := hok.not_committed (.inr (.inl hp))
  obtain ⟨work, hn, rfl, rfl⟩ | ⟨hn, rfl, rfl⟩ := Server.write_cases h
  · have hset := Server.getElem?_setTransaction
      (.active { work with writes := work.writes ++ [w] }) hn
    refine ⟨fun w' hw' => ?_, fun ha => ?_, fun w' hw' => absurd hw' (hnot w'),
      by simp [Delivery.wrote, hp], by simp [Delivery.wrote, hp], by simp [Delivery.wrote, hp]⟩
    · rw [hset] at hw'
      cases hw'
      obtain ⟨-, -, hpoint⟩ | ⟨⟨hrow, hwrites⟩, -⟩ := hok.active work hn
      · simp [hp] at hpoint
      · exact .inr ⟨⟨hrow, by simp [Delivery.wrote, hwrites]⟩, .inl hp⟩
    · rw [hset] at ha
      cases ha
  · refine ⟨fun w' hw' => ?_, fun _ => .inr (.inr ⟨rfl, .inl hp⟩),
      fun w' hw' => absurd hw' (hnot w'), by simp [Delivery.wrote, hp],
      by simp [Delivery.wrote, hp], by simp [Delivery.wrote, hp]⟩
    rw [hn] at hw'
    cases hw'

theorem ok_statementFails (hp : d.point = .handling) (hok : DeliveryOk s.server n d)
    (h : s.server.abort n = some server) :
    DeliveryOk server n { d with statementFailed := true } := by
  have hnot := hok.not_committed (.inr (.inl hp))
  have hcommitted : server.committed = s.server.committed ∧
      server.transactions[n]? = some .aborted := by
    obtain ⟨work, hn, rfl⟩ | ⟨hn, rfl⟩ := Server.abort_cases h
    · exact ⟨rfl, Server.getElem?_setTransaction _ hn⟩
    · exact ⟨rfl, hn⟩
  refine ⟨fun w hw => ?_, fun _ => .inr (.inr ⟨rfl, .inl hp⟩), fun w hw => ?_, by simp [hp],
    by simp [hp], by simp [hp]⟩
  · rw [hcommitted.2] at hw
    cases hw
  · rw [hcommitted.1] at hw
    exact absurd hw (hnot w)

theorem ok_handlerReturns (hp : d.point = .handling) (hok : DeliveryOk server n d) :
    DeliveryOk server n { d with point := .committing .processed } := by
  have hnot := hok.not_committed (.inr (.inl hp))
  refine ⟨fun w hw => ?_, fun ha => ?_, fun w hw => absurd hw (hnot w), by simp, by simp, by simp⟩
  · obtain ⟨-, -, hpoint⟩ | ⟨hdid, -⟩ := hok.active w hw
    · simp [hp] at hpoint
    · exact .inr ⟨hdid, .inr (.inl rfl)⟩
  · obtain hpoint | hpoint | ⟨hfailed, -⟩ := hok.aborted ha
    · simp [hp] at hpoint
    · simp [hp] at hpoint
    · exact .inr (.inr ⟨hfailed, .inr rfl⟩)

theorem ok_commit {o : InboxOutcome} (hp : d.point = .committing o)
    (hok : DeliveryOk s.server n d) (h : s.server.commit n = some server) :
    DeliveryOk server n { d with point := .committed o } := by
  have hnot := hok.not_committed (.inr (.inr ⟨o, hp⟩))
  have hne : o ≠ .failed := fun ho => hok.outcome.1 (ho ▸ hp)
  obtain ⟨work, hn, rfl⟩ | ⟨hn, rfl⟩ := Server.commit_cases h
  · have hset := Server.getElem?_setTransaction .ended hn
    obtain ⟨-, -, hpoint⟩ | ⟨hdid, hpoint⟩ := hok.active work hn
    · simp [hp] at hpoint
    · obtain rfl : o = .processed := by simpa [hp] using hpoint
      refine ⟨fun w hw => ?_, fun ha => ?_, fun w hw => ?_, fun _ _ => ⟨work, by simp⟩, by simp,
        by simp⟩
      · exact absurd (hset.symm.trans hw) (by simp)
      · exact absurd (hset.symm.trans ha) (by simp)
      · obtain hw | hw := List.mem_append.mp hw
        · exact absurd hw (hnot w)
        · cases List.mem_singleton.mp hw
          exact ⟨hdid, hset, .inl rfl⟩
  · have hset := Server.getElem?_setTransaction .ended hn
    refine ⟨fun w hw => ?_, fun ha => ?_, fun w hw => absurd hw (hnot w), fun ho hf => ?_,
      fun ho => ?_, by simpa using hne⟩
    · exact absurd (hset.symm.trans hw) (by simp)
    · exact absurd (hset.symm.trans ha) (by simp)
    · -- A transaction that is lost although the handler has returned has seen a statement fail.
      obtain rfl : o = .processed := by simpa using ho
      obtain hpoint | hpoint | ⟨hfailed, -⟩ := hok.aborted hn
      · simp [hp] at hpoint
      · simp [hp] at hpoint
      · exact absurd hfailed (by simpa using hf)
    · obtain rfl : o = .skipped := by simpa using ho
      exact hok.skipped (.inl hp)

theorem ok_acknowledge {o : InboxOutcome} (hp : d.point = .committed o)
    (hok : DeliveryOk server n d) : DeliveryOk server n { d with point := .returned o } := by
  have hne : o ≠ .failed := fun ho => hok.outcome.2.1 (ho ▸ hp)
  refine ⟨fun w hw => ?_, fun ha => ?_, fun w hw => ?_, fun ho hf => ?_, fun ho => ?_,
    by simpa using hne⟩
  · have := hok.active w hw
    simp [hp] at this
  · have := hok.aborted ha
    simp [hp] at this
  · obtain ⟨hdid, hended, hpoint⟩ := hok.committed w hw
    obtain rfl : o = .processed := by simpa [hp] using hpoint
    exact ⟨hdid, hended, .inr (.inl rfl)⟩
  · obtain rfl : o = .processed := by simpa using ho
    exact hok.processed (.inl hp) hf
  · obtain rfl : o = .skipped := by simpa using ho
    exact hok.skipped (.inr (.inl hp))

theorem ok_fail (hok : DeliveryOk server n d) :
    DeliveryOk server n { d with point := .failed } := by
  refine ⟨fun w hw => ?_, fun _ => .inr (.inl rfl), fun w hw => ?_, by simp, by simp, by simp⟩
  · obtain ⟨hwork, hwrites, -⟩ | ⟨hdid, -⟩ := hok.active w hw
    · exact .inl ⟨hwork, hwrites, .inr rfl⟩
    · exact .inr ⟨hdid, .inr (.inr rfl)⟩
  · obtain ⟨hdid, hended, -⟩ := hok.committed w hw
    exact ⟨hdid, hended, .inr (.inr rfl)⟩

theorem ok_rollback (hok : DeliveryOk s.server n d) (h : s.server.rollback n = some server) :
    DeliveryOk server n d := by
  obtain ⟨⟨t, hn⟩, rfl⟩ := Server.rollback_cases h
  have hset := Server.getElem?_setTransaction .ended hn
  refine ⟨fun w hw => absurd (hset.symm.trans hw) (by simp),
    fun ha => absurd (hset.symm.trans ha) (by simp), fun w hw => ?_, hok.processed, hok.skipped,
    hok.outcome⟩
  obtain ⟨hdid, -, hpoint⟩ := hok.committed w hw
  exact ⟨hdid, hset, hpoint⟩

/-! ## Runs -/

theorem inv_deliveryStep {e : InboxEvent ω} (hinv : Inv s) (hn : s.deliveries[n]? = some d)
    (h : deliveryStep s n d e d.point = some (server, d')) : Inv (s.goOn n server d') := by
  have hok := hinv.deliveries n d hn
  have hrefl := Server.touches_refl n s.server
  generalize hp : d.point = point at h
  unfold deliveryStep at h
  split at h
  · obtain ⟨⟨result, server'⟩, hinsert, heq⟩ := Option.map_eq_some_iff.mp h
    cases heq
    exact hinv.goOn hn (Server.touches_insert hinsert)
      (Server.exclusive_insert hinv.exclusive hinsert) (ok_insert hp hok hinsert)
  · obtain ⟨⟨result, server'⟩, hwrite, heq⟩ := Option.map_eq_some_iff.mp h
    cases heq
    exact hinv.goOn hn (Server.touches_write hwrite)
      (Server.exclusive_write hinv.exclusive hwrite) (ok_write hp hok hwrite)
  · obtain ⟨server', habort, heq⟩ := Option.map_eq_some_iff.mp h
    cases heq
    exact hinv.goOn hn (Server.touches_abort habort)
      (Server.exclusive_abort hinv.exclusive habort) (ok_statementFails hp hok habort)
  · cases h
    exact hinv.goOn hn hrefl hinv.exclusive (ok_handlerReturns hp hok)
  · obtain ⟨server', hcommit, heq⟩ := Option.map_eq_some_iff.mp h
    cases heq
    exact hinv.goOn hn (Server.touches_commit hcommit)
      (Server.exclusive_commit hinv.exclusive hcommit) (ok_commit hp hok hcommit)
  · cases h
    exact hinv.goOn hn hrefl hinv.exclusive (ok_acknowledge hp hok)
  · cases h
  · cases h
    exact hinv.goOn hn hrefl hinv.exclusive (ok_fail hok)
  · obtain ⟨server', hrollback, heq⟩ := Option.map_eq_some_iff.mp h
    cases heq
    exact hinv.goOn hn (Server.touches_rollback hrollback)
      (Server.exclusive_rollback hinv.exclusive hrollback) (ok_rollback hok hrollback)
  · cases h

theorem inv_deliver (consumerName : String) (eventId : Id) (hinv : Inv s) :
    Inv (s.deliver consumerName eventId) where
  exclusive := Server.exclusive_beginTransaction hinv.exclusive
  length := by simp [InboxState.deliver, Server.beginTransaction, hinv.length]
  deliveries n d hd := by
    have hlength := hinv.length
    have hd : (s.deliveries ++ [.begun consumerName eventId])[n]? = some d := hd
    obtain hlt | hle := Nat.lt_or_ge n s.deliveries.length
    · rw [List.getElem?_append_left hlt] at hd
      have hsame : s.server.beginTransaction.transactions[n]? = s.server.transactions[n]? :=
        List.getElem?_append_left (by omega)
      have hok := hinv.deliveries n d hd
      exact ⟨fun w hw => hok.active w (hsame.symm.trans hw),
        fun ha => hok.aborted (hsame.symm.trans ha),
        fun w hw => (hok.committed w hw).imp_right (.imp_left hsame.trans), hok.processed,
        hok.skipped, hok.outcome⟩
    · have hnew : s.server.beginTransaction.transactions[n]? = some (.active {}) := by
        have hn : n = s.deliveries.length := by
          have hlt := (List.getElem?_eq_some_iff.mp hd).1
          rw [List.length_append, List.length_singleton] at hlt
          omega
        rw [Server.beginTransaction, List.getElem?_append_right (by omega), hlength, hn, Nat.sub_self]
        rfl
      rw [List.getElem?_append_right hle] at hd
      obtain ⟨hlt, hd⟩ := List.getElem?_eq_some_iff.mp hd
      simp only [List.getElem_singleton] at hd
      subst hd
      refine ⟨fun w hw => ?_, fun ha => ?_, fun w hw => ?_, by simp [Delivery.begun],
        by simp [Delivery.begun], by simp [Delivery.begun]⟩
      · cases hnew.symm.trans hw
        exact .inl ⟨rfl, rfl, .inl rfl⟩
      · exact absurd (hnew.symm.trans ha) (by simp)
      · exact absurd (hinv.numbered _ hw) (by omega)
  numbered c hc := by
    have := hinv.numbered c hc
    rw [InboxState.deliver, List.length_append]
    omega

theorem inv_step (e : InboxEvent ω) (hinv : Inv s) (h : (inboxMachine ω).step e s = some s') :
    Inv s' := by
  have hgo : ∀ e' : InboxEvent ω, (do
      let n ← e'.delivery
      let d ← s.deliveries[n]?
      let (server, d) ← deliveryStep s n d e' d.point
      some (s.goOn n server d)) = some s' → Inv s' := fun e' h => by
    simp only [Option.bind_eq_bind, Option.bind_eq_some_iff] at h
    obtain ⟨n, -, d, hd, ⟨server, d'⟩, hstep, h⟩ := h
    cases h
    exact inv_deliveryStep hinv hd hstep
  cases e with
  | deliver consumerName eventId =>
      cases h
      exact inv_deliver consumerName eventId hinv
  | insert n processedAt => exact hgo (.insert n processedAt) h
  | write n w => exact hgo (.write n w) h
  | statementFails n => exact hgo (.statementFails n) h
  | handlerReturns n => exact hgo (.handlerReturns n) h
  | commit n => exact hgo (.commit n) h
  | acknowledge n => exact hgo (.acknowledge n) h
  | fail n => exact hgo (.fail n) h
  | rollback n => exact hgo (.rollback n) h

theorem inv_init : Inv ({} : InboxState ω) where
  exclusive := Server.exclusive_empty
  length := rfl
  deliveries := nofun
  numbered := nofun

/-! ## Exactly once -/

theorem Inv.holds_iff (hinv : Inv s) {c : ℕ × Work EventInbox ω} (hc : c ∈ s.server.committed)
    (key : String × Id) : c.2.holds EventInbox.key key = true ↔
      s.deliveries[c.1]?.map Delivery.key = some key := by
  obtain ⟨d, hd⟩ : ∃ d, s.deliveries[c.1]? = some d :=
    ⟨_, List.getElem?_eq_getElem (hinv.numbered c hc)⟩
  obtain ⟨⟨⟨row, hrows, hrow⟩, -⟩, -, -⟩ := (hinv.deliveries c.1 d hd).committed c.2 hc
  simp [Work.holds, hrows, hrow, hd]

theorem Inv.committedFor_eq (hinv : Inv s) (key : String × Id) : s.committedFor key =
    s.server.committed.filter fun c => c.2.holds EventInbox.key key :=
  List.filter_congr fun c hc => by
    rw [Bool.eq_iff_iff, decide_eq_true_iff, hinv.holds_iff hc]

theorem Inv.exactlyOnce (hinv : Inv s) (key : String × Id) : ExactlyOnce key s where
  atMostOnce := by
    cases hcommitted : s.committedFor key with
    | nil => exact .inl rfl
    | cons c cs =>
        have hmem : ∀ c' ∈ s.committedFor key, c' = c := fun c' hc' => by
          have hc : c ∈ s.committedFor key := hcommitted ▸ List.mem_cons_self ..
          rw [hinv.committedFor_eq] at hc hc'
          exact hinv.exclusive.eq_of_mem hc' hc
        have hlength : (s.committedFor key).length ≤ 1 := by
          rw [hinv.committedFor_eq, ← List.countP_eq_length_filter]
          exact Nat.le_trans (Nat.le_add_right _ _) (hinv.exclusive key)
        have hc : c ∈ s.committedFor key := hcommitted ▸ List.mem_cons_self ..
        obtain ⟨hc, hkey⟩ := List.mem_filter.mp hc
        obtain ⟨d, hd, hdkey⟩ := Option.map_eq_some_iff.mp (of_decide_eq_true hkey)
        obtain ⟨⟨⟨row, hrows, hrow⟩, hwrites⟩, -, hpoint⟩ :=
          (hinv.deliveries c.1 d hd).committed c.2 hc
        refine .inr ⟨c.1, d, row, ?_, hd, hrow.trans hdkey, ?_, ?_⟩
        · rw [hcommitted] at hlength
          obtain rfl : cs = [] := List.eq_nil_of_length_eq_zero (by simpa using hlength)
          rw [← hrows, ← hwrites]
        · rintro hp
          simp [hp] at hpoint
        · rintro hp
          simp [hp] at hpoint
  once := by
    rintro ⟨d, hd, hdkey, ⟨o, hp⟩, hfailed⟩
    obtain ⟨n, hn⟩ := List.mem_iff_getElem?.mp hd
    have hok := hinv.deliveries n d hn
    suffices h : ∃ c ∈ s.server.committed, c.2.holds EventInbox.key key = true by
      obtain ⟨c, hc, hheld⟩ := h
      have hmem : c ∈ s.committedFor key := by
        rw [hinv.committedFor_eq]
        exact List.mem_filter.mpr ⟨hc, hheld⟩
      exact List.ne_nil_of_mem hmem
    cases o with
    | processed =>
        obtain ⟨work, hwork⟩ := hok.processed (.inr hp) hfailed
        refine ⟨(n, work), hwork, (hinv.holds_iff hwork key).mpr ?_⟩
        simp [hn, hdkey]
    | skipped => exact hdkey ▸ hok.skipped (.inr (.inr hp))
    | failed => exact absurd hp hok.outcome.2.2
  skipped n d hn _ hp c hc hcn := by
    subst hcn
    have := ((hinv.deliveries c.1 d hn).committed c.2 hc).2.2
    simp [hp] at this

/-- Whatever the deliveries do and however often they fail: the handler of an event takes effect for a
consumer at most once, exactly once as soon as a delivery has returned without a fault, and a
duplicate commits nothing. -/
theorem inbox_exactlyOnce (h : (inboxMachine ω).Reachable Machine.anyEvent s) (key : String × Id) :
    ExactlyOnce key s :=
  (h.invariant (fun _ hs => hs ▸ inv_init) fun e _ _ hinv _ => inv_step e hinv).exactlyOnce key

/-- Three deliveries of one maintenance event: the first dies inside of its handler, the second marks
job 3 as succeeded, and the third is skipped. -/
theorem inbox_exactlyOnce_redelivered : ∃ s : InboxState Id,
    s.deliveries.map Delivery.point = [.failed, .returned .processed, .returned .skipped] ∧
      s.committedFor ("worker-cpu:maintenance", 7) ≠ [] ∧
      ExactlyOnce ("worker-cpu:maintenance", 7) s := by
  have hreplay : ((inboxMachine Id).replay Machine.anyEvent
      [.deliver "worker-cpu:maintenance" 7, .insert 0 100, .write 0 3,
        .deliver "worker-cpu:maintenance" 7, .fail 0, .rollback 0, .insert 1 200, .write 1 3,
        .deliver "worker-cpu:maintenance" 7, .handlerReturns 1, .commit 1, .insert 2 300,
        .acknowledge 1, .commit 2, .acknowledge 2] {}).map
        (fun s => (s.deliveries.map Delivery.point,
          decide (s.committedFor ("worker-cpu:maintenance", 7) ≠ []))) =
          some ([.failed, .returned .processed, .returned .skipped], true) := by
    decide
  obtain ⟨s, hrun, hs⟩ := Machine.exists_run_of_replay hreplay
  obtain ⟨hpoints, hcommitted⟩ := Prod.mk.inj hs
  exact ⟨s, hpoints, of_decide_eq_true hcommitted,
    inbox_exactlyOnce ⟨{}, rfl, hrun⟩ ("worker-cpu:maintenance", 7)⟩

end AudioBook.Inbox
