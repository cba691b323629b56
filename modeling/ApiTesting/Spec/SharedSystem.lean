import ApiTesting.Spec.System
import ApiTesting.Spec.TestRunService

/-! The workers and sweepers beside the processes of the API, which go on committing to the
database and putting tasks on the stream: runs are created, environment variables edited,
rows deleted. -/

namespace ApiTesting

open Keyed

/-- `api` is a commit of some other process, whatever it writes, with the tasks it enqueues. -/
inductive SharedAction
  | work (a : Action)
  | api (db : Database) (enqueued : List UUID)

def sharedStep (lib : Libraries) (rateLimiter : Bool) (s : System) : SharedAction → Option System
  | .work a => step lib rateLimiter s a
  | .api db enqueued =>
    some
      { s with
        stores := { s.stores with db }
        stream := enqueued.foldl Stream.enqueue s.stream }

/-- What a process sees of the variables of a project. -/
def Database.variablesOf (db : Database) (projectId : UUID) : List EnvironmentVariable :=
  (db.environmentVariables.rows.filter fun v => v.projectId = projectId).insertionSort
    fun a b => a.key ≤ b.key

/-- A run with its tasks, as `_create_run` has planned it in a session. -/
structure CreatedRun where
  session : Session
  run : TestRun
  tasks : List TestTask
  id_lt : run.id < 2 ^ 128
  created : ∃ collectionId initiatedBy runType dataRows session',
    TestRunService.planRun collectionId initiatedBy runType dataRows session =
      (.ok (run, tasks), session')

namespace CreatedRun

variable (c : CreatedRun)

/-- The environment variables at the time the run was created. -/
def environment : Dict String String :=
  match c.session.db.collections.get? c.run.collectionId with
  | some collection => environmentOf (c.session.db.variablesOf collection.projectId)
  | none => .empty

/-- The tasks of one data row. -/
def rowTasks (row : Option ℕ) : List UUID :=
  (c.tasks.filter fun t => t.dataRowIndex = row).map TestTask.id

end CreatedRun

end ApiTesting
