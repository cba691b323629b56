import ApiTesting.Spec.CronScheduler
import ApiTesting.Spec.System

/-! The transactions that create runs, beside the workers and sweepers of `System`:
requests, each with `get_db` around it, and sweeps of the cron scheduler. The rows
of a transaction are its own until its COMMIT takes effect; what it enqueues is on
the stream at once. -/

namespace ApiTesting

open Keyed

inductive CallerKind
  | request
  | cronSweep

/-- Where a transaction is: before or after a creation, before its `ensure_group`,
before the `enqueue` of the first of `unsent`, with nothing but a rollback left to
do, or at its end. -/
inductive Stage
  | ready
  | grouping (unsent : List UUID)
  | sending (unsent : List UUID)
  | raised
  | closed

/-- `runs` and `tasks` are the rows it has flushed. -/
structure Transaction where
  kind : CallerKind
  stage : Stage
  runs : List TestRun
  tasks : List TestTask

/-- What the session of the transaction sees, and everybody once it is committed. -/
def Transaction.view (tx : Transaction) (db : Database) : Database :=
  { db with
    testRuns := tx.runs.foldl Table.set db.testRuns
    testTasks := tx.tasks.foldl Table.set db.testTasks }

/-- A request lets an exception through to `get_db`; a sweep logs it and goes on. -/
def CallerKind.afterRaise : CallerKind → Stage
  | .request => .raised
  | .cronSweep => .ready

/-- After an `enqueue`. -/
def afterEnqueue : List UUID → Stage
  | [] => .ready
  | unsent => .sending unsent

def Transaction.close (tx : Transaction) : Transaction :=
  { tx with stage := .closed, runs := [], tasks := [] }

/-- `lookups` and `dropped` are histories: every task a worker has looked up, and those
it gave up as `TaskProcessingError`. -/
structure Platform where
  system : System
  nextId : UUID
  transactions : List Transaction
  lookups : List UUID
  dropped : List UUID

/-- The tasks a step looks up. -/
def System.lookedUp (s : System) : Action → List UUID
  | .slot w i .load => ((s.slotAt? w i).map fun slot => slot.entry.taskId).toList
  | _ => []

inductive PlatformAction
  | work (a : Action)
  | begin (kind : CallerKind)
  | create (t : ℕ) (collectionId initiatedBy : UUID) (dataRows : Option (List (Dict String String)))
      (now : Timestamp)
  | ensureGroup (t : ℕ) (call : Call)
  | enqueue (t : ℕ) (call : Call)
  | commit (t : ℕ) (call : Call)
  | rollback (t : ℕ)

namespace Platform

/-- The session of a transaction, as far as the rows of a run need it. -/
def session (p : Platform) (tx : Transaction) (now : Timestamp) : Session where
  db := tx.view p.system.stores.db
  committed := p.system.stores.db
  stream := p.system.stream
  nextId := p.nextId
  now := now
  redis := fun _ => .ok
  redisCalls := 0
  commitCall := .ok
  ties := .table
  failed := false

def put (p : Platform) (t : ℕ) (tx : Transaction) : Platform :=
  { p with transactions := p.transactions.set t tx }

/-- The rows of a creation: manual with data rows for a request, scheduled without for a sweep. -/
def plan (p : Platform) (tx : Transaction) (collectionId initiatedBy : UUID)
    (dataRows : Option (List (Dict String String))) (now : Timestamp) :
    Except Exn (TestRun × List TestTask) × Session :=
  match tx.kind with
  | .request => TestRunService.planRun collectionId initiatedBy .manual dataRows (p.session tx now)
  | .cronSweep => TestRunService.planRun collectionId initiatedBy .scheduled none (p.session tx now)

/-- A request creates one run. -/
def mayCreate (tx : Transaction) : Bool :=
  match tx.kind with
  | .request => tx.runs.isEmpty
  | .cronSweep => true

def step (lib : Libraries) (rateLimiter : Bool) (p : Platform) (a : PlatformAction) : Option Platform :=
  match a with
  | .work a =>
    (ApiTesting.step lib rateLimiter p.system a).map fun s =>
      { p with
        system := s
        lookups := p.lookups ++ p.system.lookedUp a
        dropped := p.dropped ++ (p.system.lookedUp a).filter fun id =>
          (loadTask p.system.stores.db id).toOption.isNone }
  | .begin kind => some { p with transactions := p.transactions ++ [⟨kind, .ready, [], []⟩] }
  | .create t collectionId initiatedBy dataRows now =>
    match p.transactions[t]? with
    | some tx =>
      match tx.stage with
      | .ready =>
        if mayCreate tx then
          match p.plan tx collectionId initiatedBy dataRows now with
          | (.ok (run, tasks), s) =>
            some ({ p with nextId := s.nextId }.put t
              { tx with
                stage := .grouping (tasks.map TestTask.id)
                runs := tx.runs ++ [run]
                tasks := tx.tasks ++ tasks })
          | (.error _, s) =>
            some ({ p with nextId := s.nextId }.put t
              { tx with stage := if s.failed then .raised else tx.kind.afterRaise })
        else none
      | _ => none
    | none => none
  | .ensureGroup t call =>
    match p.transactions[t]? with
    | some tx =>
      match tx.stage with
      | .grouping unsent =>
        some (p.put t { tx with stage := if call.returned then .sending unsent else tx.kind.afterRaise })
      | _ => none
    | none => none
  | .enqueue t call =>
    match p.transactions[t]? with
    | some tx =>
      match tx.stage with
      | .sending (id :: unsent) =>
        some ({ p with
          system :=
            { p.system with
              stream := if call.tookEffect then p.system.stream.enqueue id else p.system.stream } }.put t
          { tx with stage := if call.returned then afterEnqueue unsent else tx.kind.afterRaise })
      | _ => none
    | none => none
  | .commit t call =>
    match p.transactions[t]? with
    | some tx =>
      match tx.stage with
      | .ready =>
        let db := p.system.stores.db
        some ({ p with
          system :=
            { p.system with
              stores := { p.system.stores with db := if call.tookEffect then tx.view db else db } } }.put t
          tx.close)
      | _ => none
    | none => none
  | .rollback t =>
    match p.transactions[t]? with
    | some tx => some (p.put t tx.close)
    | none => none

end Platform

/-- A platform no transaction has been opened on yet: whatever its workers are at, the ids
in use are below the next one. -/
structure Platform.Start (p : Platform) : Prop where
  parents : ∀ t ∈ p.system.stores.db.testTasks.rows,
    (p.system.stores.db.apiRequests.get? t.apiRequestId).isSome = true ∧
      (p.system.stores.db.testRuns.get? t.testRunId).isSome = true
  runs : ∀ r ∈ p.system.stores.db.testRuns.rows, r.id < p.nextId
  tasks : ∀ t ∈ p.system.stores.db.testTasks.rows, t.id < p.nextId
  transactions : p.transactions = []
  lookups : p.lookups = []
  dropped : p.dropped = []

end ApiTesting
