import AudioBook.Concurrent.Machine
import AudioBook.Workers.Health
import Mathlib.Data.Finset.Basic

/-!
# The Runtime of a Worker

`WorkerRuntime.start` and `WorkerRuntime.shutdown` are coroutines on one event loop. Between two of
its awaits a coroutine runs without interruption, so each of them is a position, and every event is
an await that ends, a call, a delivery of a job or the end of one.

- `WorkerRuntime`: what the process holds, the position of `start`, and one position for every call
  of `shutdown`.
- `WorkerRuntime.step`: what each event does, when it is possible.
- `runtimeMachine`: the events in any order.
-/

namespace AudioBook.WorkerLifecycle

open Concurrent

/-- What a worker holds, in the order in which `shutdown` releases it. -/
inductive Resource
  /-- The model, from the end of `load` to the end of `unload`. -/
  | model
  /-- The storage client, from the construction of the runtime to `close`. -/
  | storage
  /-- The engine of the database, from `connect` to `dispose`. -/
  | database
  deriving DecidableEq, Repr

/-- What `shutdown` releases next. -/
def Resource.next : Resource → Option Resource
  | model => some storage
  | storage => some database
  | database => none

/-- What ends `start` early. -/
inductive StartError
  | dependenciesUnreachable (failed : List String)
  | probe
  | modelLoadTimeout
  | modelLoadFailed
  /-- The constructor of the queue client raised. -/
  | consumer
  | invalidTransition (e : InvalidTransitionError)
  | cancelled
  deriving DecidableEq, Repr

/-- Where the coroutine of `start` stands. -/
inductive StartPoint
  | created
  /-- At the `gather` of `_verify_dependencies`. -/
  | verifying
  | loading
  | returned
  | raised (err : StartError)
  deriving DecidableEq, Repr

/-- Where a call of `shutdown` stands. -/
inductive ShutdownPoint
  | pausing
  | waiting
  | closing (finished : Bool)
  | releasing (r : Resource) (failedStart : Bool)
  | finished (failedStart : Bool)
  /-- It found a worker that was already stopping, and returned. -/
  | ignored
  | raised (e : InvalidTransitionError)
  deriving DecidableEq, Repr

/-- `WorkerRuntime`, with its coroutines. -/
structure WorkerRuntime where
  health : WorkerHealth := {}
  start : StartPoint := .created
  /-- `_connect_db` has been scheduled and has not run. -/
  connecting : Bool := false
  /-- `_worker` of the consumer is not `None`. -/
  consumer : Bool := false
  /-- The queue client has been constructed and has not been closed. -/
  fetching : Bool := false
  held : Finset Resource := {.storage}
  unreleased : Finset Resource := ∅
  /-- The calls of `shutdown`, in the order in which they were made. -/
  calls : List ShutdownPoint := []

inductive Event
  | start
  /-- `_connect_db` creates the engine, unless that raises. -/
  | connect (creates : Bool)
  /-- A probe raises, and so does the `gather`. -/
  | probeRaised
  /-- The `gather` ends with the answers of the three probes. -/
  | verified (storageOk queueOk dbOk : Bool)
  /-- `load` ends; the constructor of the queue client may raise after it. -/
  | loaded (constructs : Bool)
  | loadTimedOut
  | loadRaised
  /-- The lifespan cancels the task of `start`. -/
  | cancelStart
  /-- `shutdown` is called, and runs up to its first await. -/
  | shutdown
  /-- What a call of `shutdown` awaits ends, perhaps by raising. -/
  | advance (call : ℕ) (raises : Bool)
  | deliver (wellFormed : Bool)
  | finishJob
  deriving DecidableEq, Repr

namespace WorkerRuntime

/-! ## `start` -/

/-- A transition of `start`, which raises where the table refuses it. -/
def transition (s : WorkerRuntime) (result : Except InvalidTransitionError WorkerHealth)
    (start : StartPoint) : WorkerRuntime :=
  match result with
  | .ok health => { s with health, start }
  | .error e => { s with start := .raised (.invalidTransition e) }

/-- `_verify_dependencies` after its `gather`. -/
def verifyDependencies (storageOk queueOk dbOk : Bool) (s : WorkerRuntime) : WorkerRuntime :=
  if ¬ (storageOk && queueOk && dbOk) then
    let failed := [("storage", storageOk), ("queue", queueOk), ("database", dbOk)].filter (!·.2)
    s.transition (s.health.markFailedStart "DEPENDENCY_UNREACHABLE")
      (.raised (.dependenciesUnreachable (failed.map Prod.fst)))
  else s.transition s.health.markDependenciesReady .loading

/-- The rest of `start` after `load`: there is no await before its end. -/
def modelLoaded (constructs : Bool) (s : WorkerRuntime) : WorkerRuntime :=
  let s := { s with held := insert Resource.model s.held }
  match s.health.markModelReady with
  | .error e => { s with start := .raised (.invalidTransition e) }
  | .ok health =>
      let s := { s with health }
      if ¬ constructs then { s with start := .raised .consumer } else
      let s := { s with consumer := true, fetching := true }
      s.transition s.health.markIdle .returned

/-! ## `shutdown` -/

/-- A new call of `shutdown` has come to its first await. -/
def called (point : ShutdownPoint) (s : WorkerRuntime) : WorkerRuntime :=
  { s with calls := s.calls ++ [point] }

/-- `shutdown` up to its first await. -/
def shutdown (s : WorkerRuntime) : WorkerRuntime :=
  if s.health.isDraining then s.called .ignored
  else if s.health.state = .failedStart then s.called (.releasing .model true)
  else
    match s.health.markDraining with
    | .error e => s.called (.raised e)
    | .ok health =>
        -- `drain` returns at once when there is no queue client.
        { s with health }.called (if s.consumer then .pausing else .releasing .model false)

def release (r : Resource) (raises : Bool) (s : WorkerRuntime) : WorkerRuntime :=
  if raises then { s with unreleased := insert r s.unreleased }
  else { s with held := s.held.erase r }

/-- `shutdown` after its last release. -/
def finish (failedStart : Bool) (s : WorkerRuntime) : WorkerRuntime × ShutdownPoint :=
  if failedStart then (s, .finished true)
  else
    match s.health.markStopped with
    | .ok health => ({ s with health }, .finished false)
    | .error e => (s, .raised e)

/-- From one await of `shutdown` to the next. -/
def advance (raises : Bool) (s : WorkerRuntime) :
    ShutdownPoint → Option (WorkerRuntime × ShutdownPoint)
  | .pausing => some (s, .waiting)
  -- The wait ends with the last job in flight, or at its deadline.
  | .waiting => some (s, .closing (s.health.inFlight = 0))
  | .closing _ =>
      some ({ s with consumer := false, fetching := s.fetching && raises }, .releasing .model false)
  | .releasing r failedStart =>
      let s := s.release r raises
      match r.next with
      | some r' => some (s, .releasing r' failedStart)
      | none => some (s.finish failedStart)
  | .finished _ => none
  | .ignored => none
  | .raised _ => none

/-! ## Jobs -/

/-- `_process` up to the first await of a job: a draining worker gives the job back, and a malformed
one is refused. -/
def deliver (wellFormed : Bool) (s : WorkerRuntime) : Option WorkerRuntime :=
  if s.health.isDraining ∨ ¬ wellFormed then some s
  else s.health.jobStarted.toOption.map fun health => { s with health }

/-! ## Events -/

def step : Event → WorkerRuntime → Option WorkerRuntime
  | .start, s =>
      if s.start = .created then some { s with start := .verifying, connecting := true } else none
  | .connect creates, s =>
      if s.connecting then
        some { s with
          connecting := false
          held := if creates then insert Resource.database s.held else s.held }
      else none
  | .probeRaised, s =>
      if s.start = .verifying then some { s with start := .raised .probe } else none
  | .verified storageOk queueOk dbOk, s =>
      if s.start = .verifying ∧ ¬ s.connecting then
        some (s.verifyDependencies storageOk queueOk dbOk)
      else none
  | .loaded constructs, s => if s.start = .loading then some (s.modelLoaded constructs) else none
  | .loadTimedOut, s =>
      if s.start = .loading then
        some (s.transition (s.health.markFailedStart "MODEL_LOAD_TIMEOUT")
          (.raised .modelLoadTimeout))
      else none
  | .loadRaised, s =>
      if s.start = .loading then
        some (s.transition (s.health.markFailedStart "MODEL_LOAD_FAILED")
          (.raised .modelLoadFailed))
      else none
  | .cancelStart, s =>
      if s.start = .created ∨ s.start = .verifying ∨ s.start = .loading then
        some { s with start := .raised .cancelled, connecting := false }
      else none
  | .shutdown, s => some s.shutdown
  | .advance call raises, s => do
      let point ← s.calls[call]?
      let (s, point) ← s.advance raises point
      some { s with calls := s.calls.set call point }
  | .deliver wellFormed, s => if s.fetching then s.deliver wellFormed else none
  | .finishJob, s =>
      if 0 < s.health.inFlight then
        s.health.jobFinished.toOption.map fun health => { s with health }
      else none

end WorkerRuntime

def runtimeMachine : Machine WorkerRuntime Event where
  init s := s = {}
  step := WorkerRuntime.step

end AudioBook.WorkerLifecycle
