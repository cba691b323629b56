import ApiTesting.Spec.Services

/-! `app.services.test_run_service`: how a run is planned, created and read. -/

namespace ApiTesting

open Keyed ServiceM

/-- The rows a run iterates over, each with the index its tasks record. -/
def rowsOf (dataRows : Option (List (Dict String String))) :
    List (Option ℕ × Option (Dict String String)) :=
  match dataRows with
  | some (row :: rows) => (row :: rows).zipIdx.map fun p => (some p.2, some p.1)
  | _ => [(none, none)]

/-- A task for each row and request, as yet without an id; what the service leaves
out is the column default. -/
def pendingTasks (testRunId : UUID) (apiRequests : List ApiRequest)
    (rows : List (Option ℕ × Option (Dict String String))) : List TestTask :=
  rows.flatMap fun row => apiRequests.map fun apiRequest =>
    { id := 0, testRunId, apiRequestId := apiRequest.id, sequenceOrder := apiRequest.orderIndex,
      dataRowIndex := row.1, dataContext := row.2, status := .pending, retryCount := 0, maxRetries := 3,
      nextRetryAt := none, assignedWorkerId := none }

def environmentOf (defined : List EnvironmentVariable) : Dict String String :=
  defined.foldl (fun env v => env.put v.key v.value) .empty

/-- One row of an export. -/
structure ResultExportRow where
  testTaskId : UUID
  apiRequestName : String
  method : HttpMethod
  url : String
  dataRowIndex : Option ℕ
  attemptNumber : ℕ
  statusCode : Option ℤ
  latencyMs : Option ℕ
  assertionsPassed : Option Bool
  errorMessage : Option PyStr
  executedAt : Timestamp

namespace TestRunService

/-- `collection.project_id` -/
def projectIdOf : Option Collection → ServiceM UUID
  | some collection => pure collection.projectId
  | none => throw ⟨.attribute, "'NoneType' object has no attribute 'project_id'"⟩

/-- `_create_run` up to the last of its rows. -/
def planRun (collectionId initiatedBy : UUID) (runType : TestRunType)
    (dataRows : Option (List (Dict String String))) : ServiceM (TestRun × List TestTask) := do
  let apiRequests ← ApiRequestRepository.listByCollection collectionId
  if apiRequests = [] then raise .collectionHasNoRequests
  let collection ← CollectionRepository.getById collectionId
  let environmentVariables :=
    environmentOf (← EnvironmentVariableRepository.listByProject (← projectIdOf collection))
  let rows := rowsOf dataRows
  let startedAt ← now
  let testRun ← TestRunRepository.create
    { id := 0, collectionId, initiatedBy, status := .running, runType, startedAt := some startedAt,
      completedAt := none, totalTasks := apiRequests.length * rows.length, completedTasks := 0,
      failedTasks := 0, config := Dict.put .empty "environment_variables" environmentVariables,
      createdAt := 0 }
  let createdTasks ← TestTaskRepository.bulkCreate (pendingTasks testRun.id apiRequests rows)
  return (testRun, createdTasks)

/-- `_create_run` from there on. -/
def sendTasks (createdTasks : List TestTask) : ServiceM Unit := do
  ensureGroup
  createdTasks.forM fun task => enqueue task.id

/-- `_create_run` -/
def createRunFor (collectionId initiatedBy : UUID) (runType : TestRunType)
    (dataRows : Option (List (Dict String String))) : ServiceM TestRun := do
  let planned ← planRun collectionId initiatedBy runType dataRows
  sendTasks planned.2
  return planned.1

def createRun (currentUser : User) (collectionId : UUID)
    (dataRows : Option (List (Dict String String))) : ServiceM TestRun := do
  let organizationId ← organizationIdForCollection collectionId .collectionNotFound
  let _ ← requireMembership organizationId currentUser.id none .collectionNotFound
  createRunFor collectionId currentUser.id .manual dataRows

def createScheduledRun (collectionId initiatedBy : UUID) : ServiceM TestRun :=
  createRunFor collectionId initiatedBy .scheduled none

def getAuthorizedRun (currentUser : User) (testRunId : UUID) : ServiceM TestRun := do
  let testRun ← existing .testRunNotFound (← TestRunRepository.getById testRunId)
  let organizationId ← organizationIdForCollection testRun.collectionId .testRunNotFound
  let _ ← requireMembership organizationId currentUser.id none .testRunNotFound
  return testRun

def listRuns (currentUser : User) (collectionId : UUID) (status : Option TestRunStatus) :
    ServiceM (List TestRun) := do
  let organizationId ← organizationIdForCollection collectionId .collectionNotFound
  let _ ← requireMembership organizationId currentUser.id none .collectionNotFound
  TestRunRepository.listByCollection collectionId status

def getRun (currentUser : User) (testRunId : UUID) : ServiceM TestRun :=
  getAuthorizedRun currentUser testRunId

def listTasks (currentUser : User) (testRunId : UUID) (status : Option TestTaskStatus)
    (limit offset : ℕ) : ServiceM (List TestTask × Dict UUID RequestResult × ℕ) := do
  let _ ← getAuthorizedRun currentUser testRunId
  let (tasks, total) ← TestTaskRepository.listByRun testRunId status limit offset
  let latestResults ← RequestResultRepository.getLatestByTaskIds (tasks.map TestTask.id)
  return (tasks, latestResults, total)

def getTaskDetail (currentUser : User) (testRunId testTaskId : UUID) :
    ServiceM (TestTask × List RequestResult × List ExecutionLog) := do
  let _ ← getAuthorizedRun currentUser testRunId
  let testTask ← existing .testTaskNotFound (← TestTaskRepository.getById testTaskId)
  if testTask.testRunId ≠ testRunId then raise .testTaskNotFound
  let attempts ← RequestResultRepository.listByTaskId testTaskId
  let logs ← ExecutionLogRepository.listByTask testTaskId
  return (testTask, attempts, logs)

def exportResults (currentUser : User) (testRunId : UUID) : ServiceM (List ResultExportRow) := do
  let _ ← getAuthorizedRun currentUser testRunId
  let rows ← RequestResultRepository.listByRun testRunId
  return rows.map fun (result, task, apiRequest) =>
    { testTaskId := task.id, apiRequestName := apiRequest.name, method := apiRequest.method,
      url := apiRequest.url, dataRowIndex := task.dataRowIndex, attemptNumber := result.attemptNumber,
      statusCode := result.statusCode, latencyMs := result.latencyMs,
      assertionsPassed := result.assertionsPassed, errorMessage := result.errorMessage,
      executedAt := result.executedAt }

end TestRunService

end ApiTesting
