import ApiTesting.Spec.Repositories

/-! `app.services`: what a request handler calls for one operation on a resource,
with the membership check every one of them begins with. -/

namespace ApiTesting

open Keyed ServiceM

def adminRoles : List OrganizationRole := [.owner, .admin]

def requireMembership (organizationId userId : UUID) (allowedRoles : Option (List OrganizationRole))
    (notFoundError : AppError) : ServiceM OrganizationMember := do
  let membership ← existing notFoundError
    (← OrganizationMemberRepository.getMembership organizationId userId)
  if allowedRoles.all fun roles => membership.role ∈ roles then return membership
  else raise .insufficientPermissions

def organizationIdForCollection (collectionId : UUID) (notFoundError : AppError) : ServiceM UUID := do
  let collection ← existing notFoundError (← CollectionRepository.getById collectionId)
  let project ← existing notFoundError (← ProjectRepository.getById collection.projectId)
  return project.organizationId

/-- `compute_next_run_at`: the next occurrence after now, in the schedule's time zone. -/
def computeNextRunAt (lib : Libraries) (cronExpression timezoneName : String) : ServiceM Timestamp := do
  match lib.cronNext cronExpression timezoneName (← now) with
  | .ok nextRunAt => return nextRunAt
  | .error e => throw e.val

/-! Only the fields a PATCH names are set. -/

structure ProjectUpdate where
  name : Option String
  description : Option (Option String)

def ProjectUpdate.applyTo (u : ProjectUpdate) (p : Project) : Project :=
  { p with name := u.name.getD p.name, description := u.description.getD p.description }

structure CollectionUpdate where
  name : Option String
  description : Option (Option String)

def CollectionUpdate.applyTo (u : CollectionUpdate) (c : Collection) : Collection :=
  { c with name := u.name.getD c.name, description := u.description.getD c.description }

/-- `order_index` may be left open. -/
structure ApiRequestCreate where
  name : String
  method : HttpMethod
  url : String
  headers : Dict String String
  queryParams : Dict String String
  body : Option String
  orderIndex : Option ℕ
  timeoutMs : ℕ
  extractRules : List ExtractRule

structure ApiRequestUpdate where
  name : Option String
  method : Option HttpMethod
  url : Option String
  headers : Option (Dict String String)
  queryParams : Option (Dict String String)
  body : Option (Option String)
  orderIndex : Option ℕ
  timeoutMs : Option ℕ
  extractRules : Option (List ExtractRule)

def ApiRequestUpdate.applyTo (u : ApiRequestUpdate) (r : ApiRequest) : ApiRequest :=
  { r with
    name := u.name.getD r.name
    method := u.method.getD r.method
    url := u.url.getD r.url
    headers := u.headers.getD r.headers
    queryParams := u.queryParams.getD r.queryParams
    body := u.body.getD r.body
    orderIndex := u.orderIndex.getD r.orderIndex
    timeoutMs := u.timeoutMs.getD r.timeoutMs
    extractRules := u.extractRules.getD r.extractRules }

structure EnvironmentVariableUpdate where
  key : Option String
  value : Option String
  isSecret : Option Bool

def EnvironmentVariableUpdate.applyTo (u : EnvironmentVariableUpdate) (v : EnvironmentVariable) :
    EnvironmentVariable :=
  { v with key := u.key.getD v.key, value := u.value.getD v.value, isSecret := u.isSecret.getD v.isSecret }

structure ScheduleUpdate where
  cronExpression : Option String
  timezone : Option String
  isActive : Option Bool

def ScheduleUpdate.applyTo (u : ScheduleUpdate) (s : Schedule) : Schedule :=
  { s with
    cronExpression := u.cronExpression.getD s.cronExpression
    timezone := u.timezone.getD s.timezone
    isActive := u.isActive.getD s.isActive }

namespace OrganizationService

def createOrganization (currentUser : User) (name slug : String) :
    ServiceM (Organization × OrganizationRole) := do
  let organization ← onIntegrityError .slugAlreadyTaken do
    let organization ← OrganizationRepository.create name slug
    let _ ← OrganizationMemberRepository.addMember organization.id currentUser.id .owner
    return organization
  return (organization, .owner)

def listMyOrganizations (currentUser : User) : ServiceM (List (Organization × OrganizationRole)) :=
  OrganizationMemberRepository.listOrganizationsForUser currentUser.id

def getOrganization (currentUser : User) (organizationId : UUID) :
    ServiceM (Organization × OrganizationRole) := do
  let membership ← requireMembership organizationId currentUser.id none .organizationNotFound
  let organization ← existing .organizationNotFound (← OrganizationRepository.getById organizationId)
  return (organization, membership.role)

def updateOrganization (currentUser : User) (organizationId : UUID) (name slug : Option String) :
    ServiceM (Organization × OrganizationRole) := do
  let membership ← requireMembership organizationId currentUser.id (some adminRoles) .organizationNotFound
  let organization ← existing .organizationNotFound (← OrganizationRepository.getById organizationId)
  let organization ← onIntegrityError .slugAlreadyTaken (OrganizationRepository.update organization name slug)
  return (organization, membership.role)

def deleteOrganization (currentUser : User) (organizationId : UUID) : ServiceM Unit := do
  let _ ← requireMembership organizationId currentUser.id (some [.owner]) .organizationNotFound
  let organization ← existing .organizationNotFound (← OrganizationRepository.getById organizationId)
  OrganizationRepository.delete organization

def listMembers (currentUser : User) (organizationId : UUID) : ServiceM (List OrganizationMember) := do
  let _ ← requireMembership organizationId currentUser.id none .organizationNotFound
  OrganizationMemberRepository.listMembers organizationId

def addMember (lib : Libraries) (currentUser : User) (organizationId : UUID) (email : String)
    (role : OrganizationRole) : ServiceM OrganizationMember := do
  let currentMembership ←
    requireMembership organizationId currentUser.id (some adminRoles) .organizationNotFound
  if role ∈ adminRoles ∧ currentMembership.role ≠ .owner then raise .insufficientPermissions
  let targetUser ← existing .userNotFound (← UserRepository.getByEmail (lib.lower (pyStrip email)))
  if (← OrganizationMemberRepository.getMembership organizationId targetUser.id).isSome then
    raise .alreadyMember
  onIntegrityError .alreadyMember
    (OrganizationMemberRepository.addMember organizationId targetUser.id role)

/-- The owners are counted only where one of them is to go. -/
def keepOwner (organizationId : UUID) : ServiceM Unit := do
  if (← OrganizationMemberRepository.countOwners organizationId) ≤ 1 then raise .cannotRemoveLastOwner

def updateMemberRole (currentUser : User) (organizationId targetUserId : UUID) (role : OrganizationRole) :
    ServiceM OrganizationMember := do
  let _ ← requireMembership organizationId currentUser.id (some [.owner]) .organizationNotFound
  let membership ← existing .membershipNotFound
    (← OrganizationMemberRepository.getMembership organizationId targetUserId)
  if membership.role = .owner ∧ role ≠ .owner then keepOwner organizationId
  OrganizationMemberRepository.updateRole membership role

def removeMember (currentUser : User) (organizationId targetUserId : UUID) : ServiceM Unit := do
  let membership ←
    if currentUser.id = targetUserId then
      requireMembership organizationId currentUser.id none .organizationNotFound
    else do
      let _ ← requireMembership organizationId currentUser.id (some [.owner]) .organizationNotFound
      existing .membershipNotFound
        (← OrganizationMemberRepository.getMembership organizationId targetUserId)
  if membership.role = .owner then keepOwner organizationId
  OrganizationMemberRepository.removeMember membership

end OrganizationService

namespace ProjectService

def getAuthorizedProject (currentUser : User) (projectId : UUID)
    (allowedRoles : Option (List OrganizationRole)) : ServiceM Project := do
  let project ← existing .projectNotFound (← ProjectRepository.getById projectId)
  let _ ← requireMembership project.organizationId currentUser.id allowedRoles .projectNotFound
  return project

def createProject (currentUser : User) (organizationId : UUID) (name : String)
    (description : Option String) : ServiceM Project := do
  let _ ← requireMembership organizationId currentUser.id none .organizationNotFound
  ProjectRepository.create organizationId name description currentUser.id

def listProjects (currentUser : User) (organizationId : UUID) : ServiceM (List Project) := do
  let _ ← requireMembership organizationId currentUser.id none .organizationNotFound
  ProjectRepository.listByOrganization organizationId

def getProject (currentUser : User) (projectId : UUID) : ServiceM Project :=
  getAuthorizedProject currentUser projectId none

def updateProject (currentUser : User) (projectId : UUID) (updateData : ProjectUpdate) :
    ServiceM Project := do
  let project ← getAuthorizedProject currentUser projectId none
  ProjectRepository.update (updateData.applyTo project)

def deleteProject (currentUser : User) (projectId : UUID) : ServiceM Unit := do
  let project ← getAuthorizedProject currentUser projectId (some adminRoles)
  ProjectRepository.delete project

end ProjectService

namespace CollectionService

/-- The same text as in `ProjectService`. -/
def getAuthorizedProject (currentUser : User) (projectId : UUID)
    (allowedRoles : Option (List OrganizationRole)) : ServiceM Project :=
  ProjectService.getAuthorizedProject currentUser projectId allowedRoles

def getAuthorizedCollection (currentUser : User) (collectionId : UUID)
    (allowedRoles : Option (List OrganizationRole)) : ServiceM Collection := do
  let collection ← existing .collectionNotFound (← CollectionRepository.getById collectionId)
  let project ← existing .collectionNotFound (← ProjectRepository.getById collection.projectId)
  let _ ← requireMembership project.organizationId currentUser.id allowedRoles .collectionNotFound
  return collection

def createCollection (currentUser : User) (projectId : UUID) (name : String)
    (description : Option String) : ServiceM Collection := do
  let _ ← getAuthorizedProject currentUser projectId none
  CollectionRepository.create projectId name description

def listCollections (currentUser : User) (projectId : UUID) : ServiceM (List Collection) := do
  let _ ← getAuthorizedProject currentUser projectId none
  CollectionRepository.listByProject projectId

def getCollection (currentUser : User) (collectionId : UUID) : ServiceM Collection :=
  getAuthorizedCollection currentUser collectionId none

def updateCollection (currentUser : User) (collectionId : UUID) (updateData : CollectionUpdate) :
    ServiceM Collection := do
  let collection ← getAuthorizedCollection currentUser collectionId none
  CollectionRepository.update (updateData.applyTo collection)

def deleteCollection (currentUser : User) (collectionId : UUID) : ServiceM Unit := do
  let collection ← getAuthorizedCollection currentUser collectionId (some adminRoles)
  CollectionRepository.delete collection

end CollectionService

namespace ApiRequestService

/-- A request whose collection is gone is reported as a missing collection. -/
def getAuthorizedRequest (currentUser : User) (requestId : UUID)
    (allowedRoles : Option (List OrganizationRole)) : ServiceM ApiRequest := do
  let request ← existing .apiRequestNotFound (← ApiRequestRepository.getById requestId)
  let organizationId ← organizationIdForCollection request.collectionId .collectionNotFound
  let _ ← requireMembership organizationId currentUser.id allowedRoles .apiRequestNotFound
  return request

def createRequest (currentUser : User) (collectionId : UUID) (fields : ApiRequestCreate) :
    ServiceM ApiRequest := do
  let organizationId ← organizationIdForCollection collectionId .collectionNotFound
  let _ ← requireMembership organizationId currentUser.id none .collectionNotFound
  let orderIndex ←
    match fields.orderIndex with
    | some orderIndex => pure orderIndex
    | none => List.length <$> ApiRequestRepository.listByCollection collectionId
  -- the id and the time are the database's to fill in
  ApiRequestRepository.create
    { id := 0, collectionId, name := fields.name, method := fields.method, url := fields.url,
      headers := fields.headers, queryParams := fields.queryParams, body := fields.body, orderIndex,
      timeoutMs := fields.timeoutMs, extractRules := fields.extractRules, createdAt := 0 }

def listRequests (currentUser : User) (collectionId : UUID) : ServiceM (List ApiRequest) := do
  let organizationId ← organizationIdForCollection collectionId .collectionNotFound
  let _ ← requireMembership organizationId currentUser.id none .collectionNotFound
  ApiRequestRepository.listByCollection collectionId

def getRequest (currentUser : User) (requestId : UUID) : ServiceM ApiRequest :=
  getAuthorizedRequest currentUser requestId none

def updateRequest (currentUser : User) (requestId : UUID) (fields : ApiRequestUpdate) :
    ServiceM ApiRequest := do
  let request ← getAuthorizedRequest currentUser requestId none
  ApiRequestRepository.update (fields.applyTo request)

def deleteRequest (currentUser : User) (requestId : UUID) : ServiceM Unit := do
  let request ← getAuthorizedRequest currentUser requestId (some adminRoles)
  ApiRequestRepository.delete request

end ApiRequestService

namespace AssertionService

def organizationIdForRequest (apiRequestId : UUID) : ServiceM UUID := do
  let request ← existing .apiRequestNotFound (← ApiRequestRepository.getById apiRequestId)
  organizationIdForCollection request.collectionId .apiRequestNotFound

def createAssertion (currentUser : User) (apiRequestId : UUID) (type : AssertionType)
    (config : Dict String Json) : ServiceM Assertion := do
  let organizationId ← organizationIdForRequest apiRequestId
  let _ ← requireMembership organizationId currentUser.id none .apiRequestNotFound
  AssertionRepository.create apiRequestId type config

def listAssertions (currentUser : User) (apiRequestId : UUID) : ServiceM (List Assertion) := do
  let organizationId ← organizationIdForRequest apiRequestId
  let _ ← requireMembership organizationId currentUser.id none .apiRequestNotFound
  AssertionRepository.listByRequest apiRequestId

def deleteAssertion (currentUser : User) (assertionId : UUID) : ServiceM Unit := do
  let assertion ← existing .assertionNotFound (← AssertionRepository.getById assertionId)
  let organizationId ← organizationIdForRequest assertion.apiRequestId
  let _ ← requireMembership organizationId currentUser.id (some adminRoles) .assertionNotFound
  AssertionRepository.delete assertion

end AssertionService

namespace EnvironmentVariableService

def organizationIdForProject (projectId : UUID) : ServiceM UUID := do
  let project ← existing .projectNotFound (← ProjectRepository.getById projectId)
  return project.organizationId

def getAuthorizedVariable (currentUser : User) (variableId : UUID) :
    ServiceM (EnvironmentVariable × OrganizationRole) := do
  let variable_ ← existing .environmentVariableNotFound (← EnvironmentVariableRepository.getById variableId)
  let organizationId ← organizationIdForProject variable_.projectId
  let membership ← requireMembership organizationId currentUser.id none .environmentVariableNotFound
  return (variable_, membership.role)

def createVariable (currentUser : User) (projectId : UUID) (key value : String) (isSecret : Bool) :
    ServiceM EnvironmentVariable := do
  let organizationId ← organizationIdForProject projectId
  let membership ← requireMembership organizationId currentUser.id none .projectNotFound
  if isSecret ∧ membership.role ∉ adminRoles then raise .insufficientPermissions
  onIntegrityError .environmentVariableKeyTaken
    (EnvironmentVariableRepository.create projectId key value isSecret)

def listVariables (currentUser : User) (projectId : UUID) : ServiceM (List EnvironmentVariable) := do
  let organizationId ← organizationIdForProject projectId
  let _ ← requireMembership organizationId currentUser.id none .projectNotFound
  EnvironmentVariableRepository.listByProject projectId

def getVariable (currentUser : User) (variableId : UUID) : ServiceM EnvironmentVariable := do
  let (variable_, _) ← getAuthorizedVariable currentUser variableId
  return variable_

def updateVariable (currentUser : User) (variableId : UUID) (fields : EnvironmentVariableUpdate) :
    ServiceM EnvironmentVariable := do
  let (variable_, role) ← getAuthorizedVariable currentUser variableId
  let becomingSecret := fields.isSecret.getD variable_.isSecret
  if (variable_.isSecret ∨ becomingSecret) ∧ role ∉ adminRoles then raise .insufficientPermissions
  onIntegrityError .environmentVariableKeyTaken
    (EnvironmentVariableRepository.update variable_ (fields.applyTo variable_))

def deleteVariable (currentUser : User) (variableId : UUID) : ServiceM Unit := do
  let (variable_, role) ← getAuthorizedVariable currentUser variableId
  if role ∉ adminRoles then raise .insufficientPermissions
  EnvironmentVariableRepository.delete variable_

end EnvironmentVariableService

namespace ScheduleService

def getAuthorizedSchedule (currentUser : User) (scheduleId : UUID)
    (allowedRoles : Option (List OrganizationRole)) : ServiceM Schedule := do
  let schedule ← existing .scheduleNotFound (← ScheduleRepository.getById scheduleId)
  let organizationId ← organizationIdForCollection schedule.collectionId .scheduleNotFound
  let _ ← requireMembership organizationId currentUser.id allowedRoles .scheduleNotFound
  return schedule

def createSchedule (lib : Libraries) (currentUser : User) (collectionId : UUID)
    (cronExpression timezoneName : String) (isActive : Bool) : ServiceM Schedule := do
  let organizationId ← organizationIdForCollection collectionId .collectionNotFound
  let _ ← requireMembership organizationId currentUser.id none .collectionNotFound
  let nextRunAt ←
    if isActive then some <$> computeNextRunAt lib cronExpression timezoneName else pure none
  ScheduleRepository.create
    { id := 0, collectionId, cronExpression, timezone := timezoneName, isActive, nextRunAt,
      lastRunAt := none, createdBy := currentUser.id, createdAt := 0 }

def listSchedules (currentUser : User) (collectionId : UUID) : ServiceM (List Schedule) := do
  let organizationId ← organizationIdForCollection collectionId .collectionNotFound
  let _ ← requireMembership organizationId currentUser.id none .collectionNotFound
  ScheduleRepository.listByCollection collectionId

def getSchedule (currentUser : User) (scheduleId : UUID) : ServiceM Schedule :=
  getAuthorizedSchedule currentUser scheduleId none

def updateSchedule (lib : Libraries) (currentUser : User) (scheduleId : UUID) (fields : ScheduleUpdate) :
    ServiceM Schedule := do
  let schedule ← getAuthorizedSchedule currentUser scheduleId none
  let updated := fields.applyTo schedule
  if fields.cronExpression.isSome ∨ fields.timezone.isSome ∨ fields.isActive.isSome then
    let nextRunAt ←
      if updated.isActive then some <$> computeNextRunAt lib updated.cronExpression updated.timezone
      else pure none
    ScheduleRepository.update { updated with nextRunAt }
  else ScheduleRepository.update updated

def deleteSchedule (currentUser : User) (scheduleId : UUID) : ServiceM Unit := do
  let schedule ← getAuthorizedSchedule currentUser scheduleId (some adminRoles)
  ScheduleRepository.delete schedule

end ScheduleService

end ApiTesting
