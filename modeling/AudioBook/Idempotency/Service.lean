import AudioBook.Concurrent.Interleaving
import AudioBook.Relational.Table

/-!
# The Idempotency Service

The API wraps state-changing requests in `IdempotencyService.run`: a request that carries an
`Idempotency-Key` looks its key up in a registry, claims it, runs the wrapped handler, and stores
the response there. These are four separate accesses to the database, so requests with one key can
interleave between any two of them.

The wrapped handler is any function from the store to a response. What it does elsewhere counts
as one effect: it takes place, or it raises without an effect. The registry keeps `expires_at` but
no code reads it, so records do not expire here.
-/

namespace AudioBook.Idempotency

open Relational Concurrent

variable {β δ : Type}

/-- `IdempotentResponse`: what a wrapped handler answers. -/
structure IdempotentResponse (β : Type) where
  status : ℕ
  body : Option β
  location : Option String
  deriving DecidableEq

/-- The columns of `idempotency_key` under which a key is unique. -/
structure Scope where
  tenantId : ℕ
  principalId : ℕ
  method : String
  pathTemplate : String
  key : String
  deriving DecidableEq

inductive IdempotencyStatus
  | inProgress
  | completed
  | failed
  deriving DecidableEq

/-- A row of `idempotency_key`. -/
structure IdempotencyKeyRow (β : Type) where
  id : ℕ
  scope : Scope
  requestBodyHash : ℕ
  status : IdempotencyStatus
  responseStatusCode : Option ℕ := none
  responseBody : Option β := none
  responseLocation : Option String := none

def IdempotencyKeyRow.response (row : IdempotencyKeyRow β) : IdempotentResponse β where
  status := row.responseStatusCode.getD 200
  body := row.responseBody
  location := row.responseLocation

structure Registry (β : Type) where
  rows : List (IdempotencyKeyRow β) := []
  /-- Every effect of a handler so far, with the response it led to. -/
  executions : List (Scope × IdempotentResponse β) := []
  /-- Every response that was sent to a client. -/
  replies : List (Scope × IdempotentResponse β) := []
  /-- The next id that `generateId` hands out. -/
  nextId : ℕ := 0

inductive RequestError
  | violation (v : Violation)
  | idempotencyKeyConflict
  | requestInProgress
  | recordNotFound
  | other
  deriving DecidableEq

instance : OfViolation RequestError := ⟨RequestError.violation⟩

/-- A request with an `Idempotency-Key`, and the handler that it wraps. -/
structure Request (β δ : Type) where
  scope : Scope
  body : δ
  handler : Registry β → IdempotentResponse β

inductive RegistryAccess
  | findUnique (scope : Scope)
  | upsert (scope : Scope)
  | handle (scope : Scope)
  | complete (id : ℕ)
  | markFailed (id : ℕ)
  | reply (scope : Scope)
  deriving DecidableEq

/-! ## Accesses -/

/-- The table `idempotency_key`. -/
def idempotencyKey : Table (Registry β) (IdempotencyKeyRow β) where
  rows := Registry.rows
  setRows rows s := { s with rows := rows }
  constraints := [.uniqueWhere fun row => some row.id, .uniqueWhere fun row => some row.scope]

abbrev RegistryTx (β : Type) := Transaction (Registry β) RequestError

def findRow (scope : Scope) (s : Registry β) : Option (IdempotencyKeyRow β) :=
  s.rows.find? fun row => decide (row.scope = scope)

def generateId : RegistryTx β ℕ := fun s => .ok (s.nextId, { s with nextId := s.nextId + 1 })

/-- The id of a claim: that of the row that was seen, or a new one. -/
def claimId : Option ℕ → RegistryTx β ℕ
  | some id => pure id
  | none => generateId

/-- `idempotencyKey.upsert`. Ids are random and drawn without an access, so a new id is drawn
with the statement. -/
def upsert (scope : Scope) (requestBodyHash : ℕ) (existing : Option ℕ) : RegistryTx β ℕ := do
  let id ← claimId existing
  match findRow scope (← get) with
  | some _ =>
      idempotencyKey.update (fun row => decide (row.scope = scope)) fun row =>
        { row with status := .inProgress, requestBodyHash := requestBodyHash }
  | none => idempotencyKey.insert { id, scope, requestBodyHash, status := .inProgress }
  return id

/-- `idempotencyKey.update` by id; the database client raises when the row is not there. -/
def updateRow (id : ℕ) (f : IdempotencyKeyRow β → IdempotencyKeyRow β) : RegistryTx β Unit := do
  if (← get).rows.any fun row => decide (row.id = id) then
    idempotencyKey.update (fun row => decide (row.id = id)) f
  else throw .recordNotFound

def complete (id : ℕ) (result : IdempotentResponse β) : RegistryTx β Unit :=
  updateRow id fun row =>
    { row with
      status := .completed
      responseStatusCode := some result.status
      responseBody := result.body
      responseLocation := result.location }

/-- Give the key back. -/
def markFailed (id : ℕ) : RegistryTx β Unit :=
  updateRow id fun row => { row with status := .failed }

/-- The effect of a handler takes place. -/
def execute (scope : Scope) (handler : Registry β → IdempotentResponse β) :
    RegistryTx β (IdempotentResponse β) := fun s =>
  .ok (handler s, { s with executions := s.executions ++ [(scope, handler s)] })

def sendReply (scope : Scope) (response : IdempotentResponse β) : RegistryTx β Unit :=
  modify fun s => { s with replies := s.replies ++ [(scope, response)] }

/-! ## The Service -/

abbrev Handler (β : Type) := Prog (Registry β) RegistryAccess RequestError

/-- The part of `run` after the lookup let the request pass. -/
def runHandler (request : Request β δ) (requestBodyHash : ℕ) (existing : Option ℕ) :
    Handler β (IdempotentResponse β) := do
  let id ← Prog.atomically (.upsert request.scope) (upsert request.scope requestBodyHash existing)
  tryCatchThe RequestError
    (do
      let result ← Prog.atomically (.handle request.scope) (execute request.scope request.handler)
      Prog.atomically (.complete id) (complete id result)
      return result)
    fun err => do
      tryCatchThe RequestError (Prog.atomically (.markFailed id) (markFailed id)) fun _ => pure ()
      throw err

def run (digest : δ → ℕ) (request : Request β δ) : Handler β (IdempotentResponse β) := do
  match ← Prog.read (.findUnique request.scope) (findRow request.scope) with
  | some existing =>
      if existing.requestBodyHash ≠ digest request.body then throw .idempotencyKeyConflict
      else match existing.status with
        | .completed => return existing.response
        | .inProgress => throw .requestInProgress
        -- A failed request is run again on the same row.
        | .failed => runHandler request (digest request.body) (some existing.id)
  | none => runHandler request (digest request.body) none

/-- A route: run the request and send the response. -/
def serve (digest : δ → ℕ) (request : Request β δ) : Handler β Unit := do
  let response ← run digest request
  Prog.atomically (.reply request.scope) (sendReply request.scope response)

/-- Any number of requests over an empty registry. -/
def idempotencySystem (β : Type) (digest : δ → ℕ) :
    System (Registry β) (Request β δ) RegistryAccess RequestError where
  init s := s = {}
  enabled _ _ := True
  program := serve digest

instance (digest : δ → ℕ) (request : Request β δ) (s : Registry β) :
    Decidable ((idempotencySystem β digest).enabled request s) :=
  isTrue trivial

end AudioBook.Idempotency
