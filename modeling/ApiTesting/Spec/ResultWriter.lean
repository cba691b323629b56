import ApiTesting.Spec.Queue

/-! `worker.result_writer`: the outcomes of one batch written in one transaction. -/

namespace ApiTesting

open Keyed

def responseBodySnippetMaxChars : ℕ := 4096

structure TaskOutcome where
  testTaskId : UUID
  testRunId : UUID
  attemptNumber : ℕ
  newStatus : TestTaskStatus
  statusCode : Option ℤ
  latencyMs : ℕ
  responseHeaders : Option (Dict String String)
  responseBody : Option PyStr
  assertionsPassed : Option Bool
  errorMessage : Option PyStr
  executedByWorkerId : WorkerId
  retryCount : ℕ
  nextRetryAt : Option Timestamp

def buildRequestResult (now : Timestamp) (o : TaskOutcome) : RequestResult where
  testTaskId := o.testTaskId
  attemptNumber := o.attemptNumber
  statusCode := o.statusCode
  latencyMs := some o.latencyMs
  responseHeaders := o.responseHeaders
  responseBodySnippet := o.responseBody.map (List.take responseBodySnippetMaxChars)
  assertionsPassed := o.assertionsPassed
  errorMessage := o.errorMessage
  executedByWorkerId := some o.executedByWorkerId
  executedAt := now

/-- `str` of an optional text or number in a log line. -/
def noneOr (s : Option PyStr) : PyStr := s.getD "None"

def buildLog (now : Timestamp) (o : TaskOutcome) : ExecutionLog :=
  let (level, message) :=
    match o.newStatus with
    | .completed =>
      (LogLevel.info, "Task completed (attempt " ++ toString o.attemptNumber ++ ", status " ++
        noneOr (o.statusCode.map fun status => toString status) ++ ").")
    | .retrying =>
      (LogLevel.warning, "Attempt " ++ toString o.attemptNumber ++ " failed, will retry: " ++
        noneOr o.errorMessage)
    | _ =>
      (LogLevel.error, "Task failed permanently after " ++ toString o.attemptNumber ++
        " attempt(s): " ++ noneOr o.errorMessage)
  { testRunId := some o.testRunId, testTaskId := some o.testTaskId, level, message,
    createdAt := now }

/-- The columns one element of the bulk UPDATE sets. -/
def TestTask.record (t : TestTask) (o : TaskOutcome) : TestTask :=
  { t with
    status := o.newStatus
    retryCount := o.retryCount
    nextRetryAt := o.nextRetryAt
    assignedWorkerId := some o.executedByWorkerId }

def applyOutcome (db : Database) (o : TaskOutcome) : Database :=
  { db with testTasks := db.testTasks.modify o.testTaskId fun t => t.record o }

/-- The bulk UPDATE, with no condition of its own: every key must match a row. A driver
that does not count the rows of several keys leaves that to the foreign keys below. -/
def updateTasks (outcomes : List TaskOutcome) (db : Database) : Except Exn Database :=
  if outcomes.all fun o => (db.testTasks.get? o.testTaskId).isSome then
    .ok (outcomes.foldl applyOutcome db)
  else .error staleDataError

/-- What a batch adds to the counters of one run. -/
structure Delta where
  completed : ℕ
  failed : ℕ

def Delta.add (d : Delta) (s : TestTaskStatus) : Delta :=
  if s = .completed then { d with completed := d.completed + 1 }
  else { d with failed := d.failed + 1 }

/-- One round of the loop over the outcomes; a RETRYING one does not count. -/
def addDelta (deltas : Dict UUID Delta) (o : TaskOutcome) : Dict UUID Delta :=
  if o.newStatus.terminal then
    deltas.put o.testRunId (((deltas.lookup o.testRunId).getD ⟨0, 0⟩).add o.newStatus)
  else deltas

def runDeltas (outcomes : List TaskOutcome) : Dict UUID Delta := outcomes.foldl addDelta .empty

/-- The column increments of one run. -/
def TestRun.advance (r : TestRun) (d : Delta) : TestRun :=
  { r with
    completedTasks := r.completedTasks + d.completed
    failedTasks := r.failedTasks + d.failed }

/-- The guarded change of status after the counters were read back. -/
def TestRun.finish (r : TestRun) (now : Timestamp) : TestRun :=
  if r.completedTasks + r.failedTasks ≥ r.totalTasks ∧ r.status = .running then
    { r with status := .completed, completedAt := some now }
  else r

@[simp] theorem TestRun.finish_advance_id (r : TestRun) (d : Delta) (now : Timestamp) :
    ((r.advance d).finish now).id = r.id := by
  unfold TestRun.finish
  split <;> rfl

/-- One round of the loop over the runs; `scalar_one` raises where the run is gone. -/
def advanceRun (now : Timestamp) (db : Database) (p : UUID × Delta) : Except Exn Database :=
  match db.testRuns.get? p.1 with
  | none => .error ⟨.other "NoResultFound", "No row was found when one was required"⟩
  | some _ => .ok
    { db with
      testRuns := db.testRuns.modify p.1 (fun r => (r.advance p.2).finish now)
        (fun r => r.finish_advance_id p.2 now) }

def updateRunProgress (outcomes : List TaskOutcome) (now : Timestamp) (db : Database) :
    Except Exn Database :=
  (runDeltas outcomes).rows.foldlM (advanceRun now) db

/-- The foreign keys of a result and a log line. -/
def hasParents (db : Database) (o : TaskOutcome) : Bool :=
  (db.testTasks.get? o.testTaskId).isSome && (db.testRuns.get? o.testRunId).isSome

/-- The INSERTs, which the session holds back until the commit. -/
def insertResults (outcomes : List TaskOutcome) (now : Timestamp) (db : Database) :
    Except Exn Database :=
  if outcomes.all (hasParents db) then .ok
    { db with
      requestResults := db.requestResults ++ outcomes.map (buildRequestResult now)
      executionLogs := db.executionLogs ++ outcomes.map (buildLog now) }
  else .error ⟨.integrity, "violates foreign key constraint"⟩

/-- The state a batch commits, or what it raises; then nothing is written. -/
def writeBatch (outcomes : List TaskOutcome) (now : Timestamp) (db : Database) :
    Except Exn Database :=
  if outcomes.isEmpty then .ok db
  else do
    let recorded ← updateTasks outcomes db
    let updated ← updateRunProgress outcomes now recorded
    insertResults outcomes now updated

end ApiTesting
