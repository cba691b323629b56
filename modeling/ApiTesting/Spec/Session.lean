import ApiTesting.Spec.Queue

/-! `app.database`: a database session with the queue beside it, as a request handler
has them. What the session changes is its own until it is committed; what goes to
Redis is there at once. After a flush that failed the session refuses every statement. -/

namespace ApiTesting

open Keyed

/-- What transactions leave to each other; ids are handed out in order. -/
structure World where
  db : Database
  stream : Stream
  nextId : UUID

/-- The order in which a query returns schedules that its `ORDER BY` leaves tied. -/
structure Ties where
  arrange : List Schedule → List Schedule
  perm : ∀ rows, (arrange rows).Perm rows

/-- As in the table. -/
def Ties.table : Ties := ⟨id, List.Perm.refl⟩

/-- What a transaction runs into: the time, how its i-th call to Redis and its COMMIT end,
and how ties are broken. -/
structure Surroundings where
  now : Timestamp
  redis : ℕ → Call
  commit : Call
  ties : Ties

/-- `db` is what the session sees, `committed` what everybody else does. -/
structure Session where
  db : Database
  committed : Database
  stream : Stream
  nextId : UUID
  now : Timestamp
  redis : ℕ → Call
  redisCalls : ℕ
  commitCall : Call
  ties : Ties
  failed : Bool

abbrev ServiceM := ExceptT Exn (StateM Session)

def integrityError : Exn := ⟨.integrity, "violates a constraint"⟩

def pendingRollbackError : Exn :=
  ⟨.other "PendingRollbackError", "This Session's transaction has been rolled back due to a " ++
    "previous exception during flush."⟩

namespace ServiceM

def raise {α : Type} (e : AppError) : ServiceM α := throw e.toExn

/-- `if row is None: raise e()` -/
def existing {α : Type} (e : AppError) : Option α → ServiceM α
  | some row => pure row
  | none => raise e

/-- `except IntegrityError: raise e()` -/
def onIntegrityError {α : Type} (e : AppError) (body : ServiceM α) : ServiceM α :=
  tryCatch body fun exc => if exc.cls = .integrity then raise e else throw exc

/-- A SELECT. -/
def query {α : Type} (f : Database → α) : ServiceM α := fun s =>
  if s.failed then (.error pendingRollbackError, s) else (.ok (f s.db), s)

/-- The statements of one flush. -/
def flush (f : Database → Except Exn Database) : ServiceM Unit := fun s =>
  if s.failed then (.error pendingRollbackError, s)
  else
    match f s.db with
    | .ok db => (.ok (), { s with db })
    | .error e => (.error e, { s with failed := true })

/-- `count` ids of `generate_uuid7`, from the one returned on. -/
def generateIds (count : ℕ) : ServiceM UUID := fun s =>
  (.ok s.nextId, { s with nextId := s.nextId + count })

def generateUuid7 : ServiceM UUID := generateIds 1

def now : ServiceM Timestamp := fun s => (.ok s.now, s)

/-- The next call to Redis, with what it does where it takes effect. -/
def callRedis (effect : Stream → Stream) : ServiceM Unit := fun s =>
  let call := s.redis s.redisCalls
  (if call.returned then .ok () else .error callError,
    { s with
      stream := if call.tookEffect then effect s.stream else s.stream
      redisCalls := s.redisCalls + 1 })

/-- The group and its stream exist once the platform runs. -/
def ensureGroup : ServiceM Unit := callRedis id

def enqueue (taskId : UUID) : ServiceM Unit := callRedis fun st => st.enqueue taskId

/-- `session.commit()` -/
def commit : ServiceM Unit := fun s =>
  if s.failed then (.error pendingRollbackError, s)
  else
    (if s.commitCall.returned then .ok () else .error callError,
      { s with committed := if s.commitCall.tookEffect then s.db else s.committed })

/-- `get_db` around a request: nothing is committed of one that raised. -/
def getDb {α : Type} (request : ServiceM α) : ServiceM α := do
  let response ← request
  commit
  return response

end ServiceM

/-- The session of a new transaction. -/
def World.session (w : World) (x : Surroundings) : Session :=
  { db := w.db, committed := w.db, stream := w.stream, nextId := w.nextId, now := x.now,
    redis := x.redis, redisCalls := 0, commitCall := x.commit, ties := x.ties, failed := false }

/-- What is there once the session is closed. -/
def Session.close (s : Session) : World := ⟨s.committed, s.stream, s.nextId⟩

def ServiceM.transact {α : Type} (m : ServiceM α) (x : Surroundings) (w : World) : Except Exn α × World :=
  let (result, s) := m (w.session x)
  (result, s.close)

/-! Rows in a flush. -/

section
variable {ρ κ : Type} [DecidableEq κ] {key : ρ → κ}

/-- A foreign key, a unique constraint, or a column that is not nullable. -/
def require (ok : Bool) : Except Exn Unit := if ok then .ok () else .error integrityError

def insertRow (t : Table key) (r : ρ) : Except Exn (Table key) :=
  match t.insert? r with
  | some u => .ok u
  | none => .error integrityError

def updateRow (t : Table key) (r : ρ) : Except Exn (Table key) :=
  if (t.get? (key r)).isSome then .ok (t.set r) else .error staleDataError

def deleteRow (t : Table key) (k : κ) : Except Exn (Table key) :=
  if (t.get? k).isSome then .ok (t.erase k) else .error staleDataError

end

end ApiTesting
