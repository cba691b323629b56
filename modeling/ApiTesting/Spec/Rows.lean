import ApiTesting.Spec.Host
import Mathlib.Data.List.Sort

/-! The rows of the tables and the database as one value. A table is keyed by
its primary key; `organization_members` by its unique pair. -/

namespace ApiTesting

open Keyed

inductive OrganizationRole
  | owner
  | admin
  | member
deriving DecidableEq

inductive HttpMethod
  | get
  | post
  | put
  | patch
  | delete
  | head
  | options
deriving DecidableEq

inductive AssertionType
  | statusCodeEquals
  | jsonPathEquals
  | jsonPathExists
  | responseTimeBelow
  | headerEquals
deriving DecidableEq

/-- `AssertionType.value`. -/
def AssertionType.toValue : AssertionType → String
  | .statusCodeEquals => "status_code_equals"
  | .jsonPathEquals => "json_path_equals"
  | .jsonPathExists => "json_path_exists"
  | .responseTimeBelow => "response_time_below"
  | .headerEquals => "header_equals"

inductive TestRunStatus
  | pending
  | running
  | completed
  | failed
  | cancelled
deriving DecidableEq

inductive TestRunType
  | manual
  | scheduled
deriving DecidableEq

inductive TestTaskStatus
  | pending
  | queued
  | running
  | completed
  | failed
  | retrying
deriving DecidableEq

/-- `status in (COMPLETED, FAILED)`. -/
def TestTaskStatus.terminal : TestTaskStatus → Bool
  | .completed => true
  | .failed => true
  | _ => false

inductive LogLevel
  | debug
  | info
  | warning
  | error
deriving DecidableEq

structure User where
  id : UUID
  email : String

structure Organization where
  id : UUID
  name : String
  slug : String
  createdAt : Timestamp

structure OrganizationMember where
  organizationId : UUID
  userId : UUID
  role : OrganizationRole
  createdAt : Timestamp

def OrganizationMember.key (m : OrganizationMember) : UUID × UUID := (m.organizationId, m.userId)

structure Project where
  id : UUID
  organizationId : UUID
  name : String
  description : Option String
  createdBy : UUID
  createdAt : Timestamp

structure Collection where
  id : UUID
  projectId : UUID
  name : String
  description : Option String
  createdAt : Timestamp

/-- A rule of `extract_rules`; `other` is a type the extractor does not know. -/
inductive ExtractRule
  | jsonPath (path saveAs : String)
  | jwtClaim (sourceVar claim saveAs : String)
  | other (type : String)

structure ApiRequest where
  id : UUID
  collectionId : UUID
  name : String
  method : HttpMethod
  url : String
  headers : Dict String String
  queryParams : Dict String String
  body : Option String
  orderIndex : ℕ
  timeoutMs : ℕ
  extractRules : List ExtractRule
  createdAt : Timestamp

structure Assertion where
  id : UUID
  apiRequestId : UUID
  type : AssertionType
  config : Dict String Json
  createdAt : Timestamp

structure EnvironmentVariable where
  id : UUID
  projectId : UUID
  key : String
  value : String
  isSecret : Bool
  createdAt : Timestamp
  updatedAt : Timestamp
deriving DecidableEq

structure Schedule where
  id : UUID
  collectionId : UUID
  cronExpression : String
  timezone : String
  isActive : Bool
  nextRunAt : Option Timestamp
  lastRunAt : Option Timestamp
  createdBy : UUID
  createdAt : Timestamp

structure TestRun where
  id : UUID
  collectionId : UUID
  initiatedBy : UUID
  status : TestRunStatus
  runType : TestRunType
  startedAt : Option Timestamp
  completedAt : Option Timestamp
  totalTasks : ℕ
  completedTasks : ℕ
  failedTasks : ℕ
  config : Dict String (Dict String String)
  createdAt : Timestamp

structure TestTask where
  id : UUID
  testRunId : UUID
  apiRequestId : UUID
  sequenceOrder : ℕ
  dataRowIndex : Option ℕ
  dataContext : Option (Dict String String)
  status : TestTaskStatus
  retryCount : ℕ
  maxRetries : ℕ
  nextRetryAt : Option Timestamp
  assignedWorkerId : Option UUID

structure RequestResult where
  testTaskId : UUID
  attemptNumber : ℕ
  statusCode : Option ℤ
  latencyMs : Option ℕ
  responseHeaders : Option (Dict String String)
  responseBodySnippet : Option PyStr
  assertionsPassed : Option Bool
  errorMessage : Option PyStr
  executedByWorkerId : Option UUID
  executedAt : Timestamp

structure ExecutionLog where
  testRunId : Option UUID
  testTaskId : Option UUID
  level : LogLevel
  message : PyStr
  createdAt : Timestamp

structure Database where
  users : Table User.id
  organizations : Table Organization.id
  organizationMembers : Table OrganizationMember.key
  projects : Table Project.id
  collections : Table Collection.id
  apiRequests : Table ApiRequest.id
  assertions : Table Assertion.id
  environmentVariables : Table EnvironmentVariable.id
  schedules : Table Schedule.id
  testRuns : Table TestRun.id
  testTasks : Table TestTask.id
  requestResults : List RequestResult
  executionLogs : List ExecutionLog

def Database.empty : Database where
  users := .empty
  organizations := .empty
  organizationMembers := .empty
  projects := .empty
  collections := .empty
  apiRequests := .empty
  assertions := .empty
  environmentVariables := .empty
  schedules := .empty
  testRuns := .empty
  testTasks := .empty
  requestResults := []
  executionLogs := []

/-- `ORDER BY`, as a stable sort of the rows by a key. -/
def orderBy {ρ : Type*} (key : ρ → Timestamp) (rows : List ρ) : List ρ :=
  rows.insertionSort fun a b => key a ≤ key b

end ApiTesting
