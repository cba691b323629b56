import ApiTesting.Spec.Session

/-! `app.repositories`: the queries and flushes of each table, under the constraints
the schema puts on it. -/

namespace ApiTesting

open Keyed ServiceM

/-! What `session.delete` does to a row and to the rows that hang off it: a
relationship with a delete cascade takes its rows along; one without sets their
foreign key to NULL, which those columns refuse. -/

def deleteAssertionRow (db : Database) (a : Assertion) : Except Exn Database := do
  let assertions ← deleteRow db.assertions a.id
  return { db with assertions }

def deleteApiRequestRow (db : Database) (r : ApiRequest) : Except Exn Database := do
  require (db.testTasks.rows.all fun t => t.apiRequestId ≠ r.id)
  let db ← (db.assertions.rows.filter fun a => a.apiRequestId = r.id).foldlM deleteAssertionRow db
  let apiRequests ← deleteRow db.apiRequests r.id
  return { db with apiRequests }

def deleteScheduleRow (db : Database) (s : Schedule) : Except Exn Database := do
  let schedules ← deleteRow db.schedules s.id
  return { db with schedules }

def deleteVariableRow (db : Database) (v : EnvironmentVariable) : Except Exn Database := do
  let environmentVariables ← deleteRow db.environmentVariables v.id
  return { db with environmentVariables }

def deleteCollectionRow (db : Database) (c : Collection) : Except Exn Database := do
  require (db.testRuns.rows.all fun r => r.collectionId ≠ c.id)
  let db ← (db.apiRequests.rows.filter fun r => r.collectionId = c.id).foldlM deleteApiRequestRow db
  let db ← (db.schedules.rows.filter fun s => s.collectionId = c.id).foldlM deleteScheduleRow db
  let collections ← deleteRow db.collections c.id
  return { db with collections }

def deleteProjectRow (db : Database) (p : Project) : Except Exn Database := do
  let db ← (db.collections.rows.filter fun c => c.projectId = p.id).foldlM deleteCollectionRow db
  let db ← (db.environmentVariables.rows.filter fun v => v.projectId = p.id).foldlM deleteVariableRow db
  let projects ← deleteRow db.projects p.id
  return { db with projects }

def deleteMemberRow (db : Database) (m : OrganizationMember) : Except Exn Database := do
  let organizationMembers ← deleteRow db.organizationMembers m.key
  return { db with organizationMembers }

def deleteOrganizationRow (db : Database) (o : Organization) : Except Exn Database := do
  let db ← (db.organizationMembers.rows.filter fun m => m.organizationId = o.id).foldlM deleteMemberRow db
  let db ← (db.projects.rows.filter fun p => p.organizationId = o.id).foldlM deleteProjectRow db
  let organizations ← deleteRow db.organizations o.id
  return { db with organizations }

namespace OrganizationRepository

def getById (organizationId : UUID) : ServiceM (Option Organization) :=
  query fun db => db.organizations.get? organizationId

def slugFree (db : Database) (id : UUID) (slug : String) : Bool :=
  db.organizations.rows.all fun o => o.id = id ∨ o.slug ≠ slug

def create (name slug : String) : ServiceM Organization := do
  let organization : Organization := { id := ← generateUuid7, name, slug, createdAt := ← now }
  flush fun db => do
    require (slugFree db organization.id slug)
    let organizations ← insertRow db.organizations organization
    return { db with organizations }
  return organization

def update (organization : Organization) (name slug : Option String) : ServiceM Organization := do
  let organization :=
    { organization with name := name.getD organization.name, slug := slug.getD organization.slug }
  flush fun db => do
    require (slugFree db organization.id organization.slug)
    let organizations ← updateRow db.organizations organization
    return { db with organizations }
  return organization

def delete (organization : Organization) : ServiceM Unit :=
  flush fun db => deleteOrganizationRow db organization

end OrganizationRepository

namespace OrganizationMemberRepository

def getMembership (organizationId userId : UUID) : ServiceM (Option OrganizationMember) :=
  query fun db => db.organizationMembers.get? (organizationId, userId)

def listMembers (organizationId : UUID) : ServiceM (List OrganizationMember) :=
  query fun db => orderBy OrganizationMember.createdAt
    (db.organizationMembers.rows.filter fun m => m.organizationId = organizationId)

def listOrganizationsForUser (userId : UUID) : ServiceM (List (Organization × OrganizationRole)) :=
  query fun db => (orderBy Organization.createdAt db.organizations.rows).filterMap fun o =>
    (db.organizationMembers.get? (o.id, userId)).map fun m => (o, m.role)

def addMember (organizationId userId : UUID) (role : OrganizationRole) : ServiceM OrganizationMember := do
  let member : OrganizationMember := { organizationId, userId, role, createdAt := ← now }
  flush fun db => do
    require ((db.organizations.get? organizationId).isSome && (db.users.get? userId).isSome)
    let organizationMembers ← insertRow db.organizationMembers member
    return { db with organizationMembers }
  return member

def updateRole (membership : OrganizationMember) (role : OrganizationRole) :
    ServiceM OrganizationMember := do
  let membership := { membership with role }
  flush fun db => do
    let organizationMembers ← updateRow db.organizationMembers membership
    return { db with organizationMembers }
  return membership

def removeMember (membership : OrganizationMember) : ServiceM Unit :=
  flush fun db => deleteMemberRow db membership

def countOwners (organizationId : UUID) : ServiceM ℕ :=
  query fun db => db.organizationMembers.rows.countP fun m =>
    m.organizationId = organizationId ∧ m.role = .owner

end OrganizationMemberRepository

namespace UserRepository

def getByEmail (email : String) : ServiceM (Option User) :=
  query fun db => db.users.rows.find? fun u => u.email = email

end UserRepository

namespace ProjectRepository

def getById (projectId : UUID) : ServiceM (Option Project) :=
  query fun db => db.projects.get? projectId

def listByOrganization (organizationId : UUID) : ServiceM (List Project) :=
  query fun db => orderBy Project.createdAt
    (db.projects.rows.filter fun p => p.organizationId = organizationId)

def create (organizationId : UUID) (name : String) (description : Option String) (createdBy : UUID) :
    ServiceM Project := do
  let project : Project :=
    { id := ← generateUuid7, organizationId, name, description, createdBy, createdAt := ← now }
  flush fun db => do
    require ((db.organizations.get? organizationId).isSome && (db.users.get? createdBy).isSome)
    let projects ← insertRow db.projects project
    return { db with projects }
  return project

def update (project : Project) : ServiceM Project := do
  flush fun db => do
    let projects ← updateRow db.projects project
    return { db with projects }
  return project

def delete (project : Project) : ServiceM Unit := flush fun db => deleteProjectRow db project

end ProjectRepository

namespace CollectionRepository

def getById (collectionId : UUID) : ServiceM (Option Collection) :=
  query fun db => db.collections.get? collectionId

def listByProject (projectId : UUID) : ServiceM (List Collection) :=
  query fun db => orderBy Collection.createdAt
    (db.collections.rows.filter fun c => c.projectId = projectId)

def create (projectId : UUID) (name : String) (description : Option String) : ServiceM Collection := do
  let collection : Collection :=
    { id := ← generateUuid7, projectId, name, description, createdAt := ← now }
  flush fun db => do
    require (db.projects.get? projectId).isSome
    let collections ← insertRow db.collections collection
    return { db with collections }
  return collection

def update (collection : Collection) : ServiceM Collection := do
  flush fun db => do
    let collections ← updateRow db.collections collection
    return { db with collections }
  return collection

def delete (collection : Collection) : ServiceM Unit :=
  flush fun db => deleteCollectionRow db collection

end CollectionRepository

/-- `ORDER BY order_index, created_at`. -/
def Database.requestsOf (db : Database) (collectionId : UUID) : List ApiRequest :=
  (db.apiRequests.rows.filter fun r => r.collectionId = collectionId).insertionSort fun a b =>
    a.orderIndex < b.orderIndex ∨ a.orderIndex = b.orderIndex ∧ a.createdAt ≤ b.createdAt

namespace ApiRequestRepository

def getById (requestId : UUID) : ServiceM (Option ApiRequest) :=
  query fun db => db.apiRequests.get? requestId

def listByCollection (collectionId : UUID) : ServiceM (List ApiRequest) :=
  query fun db => db.requestsOf collectionId

def create (request : ApiRequest) : ServiceM ApiRequest := do
  let request := { request with id := ← generateUuid7, createdAt := ← now }
  flush fun db => do
    require (db.collections.get? request.collectionId).isSome
    let apiRequests ← insertRow db.apiRequests request
    return { db with apiRequests }
  return request

def update (request : ApiRequest) : ServiceM ApiRequest := do
  flush fun db => do
    let apiRequests ← updateRow db.apiRequests request
    return { db with apiRequests }
  return request

def delete (request : ApiRequest) : ServiceM Unit := flush fun db => deleteApiRequestRow db request

end ApiRequestRepository

namespace AssertionRepository

def getById (assertionId : UUID) : ServiceM (Option Assertion) :=
  query fun db => db.assertions.get? assertionId

def listByRequest (apiRequestId : UUID) : ServiceM (List Assertion) :=
  query fun db => orderBy Assertion.createdAt
    (db.assertions.rows.filter fun a => a.apiRequestId = apiRequestId)

def create (apiRequestId : UUID) (type : AssertionType) (config : Dict String Json) :
    ServiceM Assertion := do
  let assertion : Assertion := { id := ← generateUuid7, apiRequestId, type, config, createdAt := ← now }
  flush fun db => do
    require (db.apiRequests.get? apiRequestId).isSome
    let assertions ← insertRow db.assertions assertion
    return { db with assertions }
  return assertion

def delete (assertion : Assertion) : ServiceM Unit := flush fun db => deleteAssertionRow db assertion

end AssertionRepository

namespace EnvironmentVariableRepository

def getById (variableId : UUID) : ServiceM (Option EnvironmentVariable) :=
  query fun db => db.environmentVariables.get? variableId

def listByProject (projectId : UUID) : ServiceM (List EnvironmentVariable) :=
  query fun db =>
    (db.environmentVariables.rows.filter fun v => v.projectId = projectId).insertionSort
      fun a b => a.key ≤ b.key

def keyFree (db : Database) (v : EnvironmentVariable) : Bool :=
  db.environmentVariables.rows.all fun q => q.id = v.id ∨ q.projectId ≠ v.projectId ∨ q.key ≠ v.key

def create (projectId : UUID) (key value : String) (isSecret : Bool) : ServiceM EnvironmentVariable := do
  let createdAt ← now
  let variable_ : EnvironmentVariable :=
    { id := ← generateUuid7, projectId, key, value, isSecret, createdAt, updatedAt := createdAt }
  flush fun db => do
    require ((db.projects.get? projectId).isSome && keyFree db variable_)
    let environmentVariables ← insertRow db.environmentVariables variable_
    return { db with environmentVariables }
  return variable_

/-- An UPDATE is sent where a column changes, and `updated_at` changes with it. -/
def update (variable_ updated : EnvironmentVariable) : ServiceM EnvironmentVariable := do
  if updated = variable_ then return variable_
  let updated := { updated with updatedAt := ← now }
  flush fun db => do
    require (keyFree db updated)
    let environmentVariables ← updateRow db.environmentVariables updated
    return { db with environmentVariables }
  return updated

def delete (variable_ : EnvironmentVariable) : ServiceM Unit :=
  flush fun db => deleteVariableRow db variable_

end EnvironmentVariableRepository

/-- Active schedules whose time has come, the longest overdue first. -/
def Database.dueSchedules (db : Database) (ties : Ties) (now : Timestamp) (limit : ℕ) : List Schedule :=
  (orderBy (fun s => s.nextRunAt.getD 0) (ties.arrange
    (db.schedules.rows.filter fun s => s.isActive && s.nextRunAt.any fun t => t ≤ now))).take limit

theorem mem_dueSchedules {db : Database} {ties : Ties} {now : Timestamp} {limit : ℕ} {sc : Schedule}
    (h : sc ∈ db.dueSchedules ties now limit) :
    sc ∈ db.schedules.rows ∧ sc.isActive = true ∧ ∃ t, sc.nextRunAt = some t ∧ t ≤ now := by
  have hsorted := List.mem_of_mem_take h
  rw [orderBy, List.mem_insertionSort] at hsorted
  have hdue := (ties.perm _).mem_iff.1 hsorted
  simpa [Option.any_eq_true] using hdue

theorem nodup_dueSchedules (db : Database) (ties : Ties) (now : Timestamp) (limit : ℕ) :
    ((db.dueSchedules ties now limit).map Schedule.id).Nodup := by
  refine List.Nodup.sublist ((List.take_sublist _ _).map _) ?_
  rw [orderBy, ((List.perm_insertionSort _ _).map _).nodup_iff, ((ties.perm _).map _).nodup_iff]
  exact db.schedules.nodup.sublist (List.filter_sublist.map Schedule.id)

namespace ScheduleRepository

def getById (scheduleId : UUID) : ServiceM (Option Schedule) :=
  query fun db => db.schedules.get? scheduleId

def listByCollection (collectionId : UUID) : ServiceM (List Schedule) :=
  query fun db => orderBy Schedule.createdAt
    (db.schedules.rows.filter fun s => s.collectionId = collectionId)

def listDue (now : Timestamp) (limit : ℕ) : ServiceM (List Schedule) := fun s =>
  query (fun db => db.dueSchedules s.ties now limit) s

def create (schedule : Schedule) : ServiceM Schedule := do
  let schedule := { schedule with id := ← generateUuid7, createdAt := ← now }
  flush fun db => do
    require ((db.collections.get? schedule.collectionId).isSome && (db.users.get? schedule.createdBy).isSome)
    let schedules ← insertRow db.schedules schedule
    return { db with schedules }
  return schedule

def update (schedule : Schedule) : ServiceM Schedule := do
  flush fun db => do
    let schedules ← updateRow db.schedules schedule
    return { db with schedules }
  return schedule

def delete (schedule : Schedule) : ServiceM Unit := flush fun db => deleteScheduleRow db schedule

end ScheduleRepository

namespace TestRunRepository

def getById (testRunId : UUID) : ServiceM (Option TestRun) :=
  query fun db => db.testRuns.get? testRunId

/-- Newest first. -/
def listByCollection (collectionId : UUID) (status : Option TestRunStatus) : ServiceM (List TestRun) :=
  query fun db =>
    (db.testRuns.rows.filter fun r =>
      r.collectionId = collectionId ∧ status.all fun q => r.status = q).insertionSort
        fun a b => b.createdAt ≤ a.createdAt

def insert (db : Database) (run : TestRun) : Except Exn Database := do
  require ((db.collections.get? run.collectionId).isSome && (db.users.get? run.initiatedBy).isSome)
  let testRuns ← insertRow db.testRuns run
  return { db with testRuns }

def create (run : TestRun) : ServiceM TestRun := do
  let run := { run with id := ← generateUuid7, createdAt := ← now }
  flush fun db => insert db run
  return run

end TestRunRepository

namespace TestTaskRepository

def getById (testTaskId : UUID) : ServiceM (Option TestTask) :=
  query fun db => db.testTasks.get? testTaskId

def insert (db : Database) (task : TestTask) : Except Exn Database := do
  require ((db.testRuns.get? task.testRunId).isSome && (db.apiRequests.get? task.apiRequestId).isSome)
  let testTasks ← insertRow db.testTasks task
  return { db with testTasks }

/-- The ids are assigned as the INSERTs are compiled, in the order of the list. -/
def assignIds (firstId : UUID) (tasks : List TestTask) : List TestTask :=
  tasks.zipIdx.map fun p => { p.1 with id := firstId + p.2 }

def bulkCreate (tasks : List TestTask) : ServiceM (List TestTask) := do
  let tasks := assignIds (← generateIds tasks.length) tasks
  flush fun db => tasks.foldlM insert db
  return tasks

/-- `ORDER BY data_row_index, sequence_order`; a NULL index comes last. -/
def inPageOrder (a b : TestTask) : Bool :=
  match a.dataRowIndex, b.dataRowIndex with
  | some i, some j => i < j ∨ i = j ∧ a.sequenceOrder ≤ b.sequenceOrder
  | some _, none => true
  | none, some _ => false
  | none, none => a.sequenceOrder ≤ b.sequenceOrder

def listByRun (testRunId : UUID) (status : Option TestTaskStatus) (limit offset : ℕ) :
    ServiceM (List TestTask × ℕ) :=
  query fun db =>
    let matching := db.testTasks.rows.filter fun t =>
      t.testRunId = testRunId ∧ status.all fun q => t.status = q
    (((matching.insertionSort fun a b => inPageOrder a b).drop offset).take limit, matching.length)

end TestTaskRepository

namespace RequestResultRepository

def getLatestByTaskIds (testTaskIds : List UUID) : ServiceM (Dict UUID RequestResult) :=
  query fun db =>
    (((db.requestResults.filter fun r => r.testTaskId ∈ testTaskIds).insertionSort fun a b =>
      a.testTaskId < b.testTaskId ∨ a.testTaskId = b.testTaskId ∧ a.attemptNumber ≤ b.attemptNumber).foldl
        (fun latest r => latest.put r.testTaskId r) .empty)

def listByTaskId (testTaskId : UUID) : ServiceM (List RequestResult) :=
  query fun db =>
    (db.requestResults.filter fun r => r.testTaskId = testTaskId).insertionSort
      fun a b => a.attemptNumber ≤ b.attemptNumber

/-- The results of a run, each with its task and request. -/
def listByRun (testRunId : UUID) : ServiceM (List (RequestResult × TestTask × ApiRequest)) :=
  query fun db =>
    (db.requestResults.filterMap fun r =>
      match db.testTasks.get? r.testTaskId with
      | some t =>
        if t.testRunId = testRunId then (db.apiRequests.get? t.apiRequestId).map fun q => (r, t, q)
        else none
      | none => none).insertionSort fun a b =>
        ¬ inPageOrder b.2.1 a.2.1 ∨ inPageOrder a.2.1 b.2.1 ∧ a.1.attemptNumber ≤ b.1.attemptNumber
where
  inPageOrder := TestTaskRepository.inPageOrder

end RequestResultRepository

namespace ExecutionLogRepository

def listByTask (testTaskId : UUID) : ServiceM (List ExecutionLog) :=
  query fun db => orderBy ExecutionLog.createdAt
    (db.executionLogs.filter fun l => l.testTaskId = some testTaskId)

end ExecutionLogRepository

end ApiTesting
