import ApiTesting.Proofs.Launch
import ApiTesting.Proofs.Sessions
import ApiTesting.Spec.TestRunService

/-! Whoever is outside an organization sees nothing of it: an operation on an id that
belongs to it is refused as one on an id that does not exist, with the session
untouched. -/

namespace ApiTesting

open Keyed ServiceM Fallible

/-- What an id given to an operation names. -/
inductive Kind
  | organization
  | project
  | collection
  | apiRequest
  | assertion
  | environmentVariable
  | schedule
  | testRun
  | testTask

/-- The operations that take an id, with the rest of their arguments. -/
inductive Operation : Kind → Type
  | getOrganization : Operation .organization
  | updateOrganization (name slug : Option String) : Operation .organization
  | deleteOrganization : Operation .organization
  | listMembers : Operation .organization
  | addMember (email : String) (role : OrganizationRole) : Operation .organization
  | updateMemberRole (targetUserId : UUID) (role : OrganizationRole) : Operation .organization
  | removeMember (targetUserId : UUID) : Operation .organization
  | createProject (name : String) (description : Option String) : Operation .organization
  | listProjects : Operation .organization
  | getProject : Operation .project
  | updateProject (updateData : ProjectUpdate) : Operation .project
  | deleteProject : Operation .project
  | createCollection (name : String) (description : Option String) : Operation .project
  | listCollections : Operation .project
  | createVariable (key value : String) (isSecret : Bool) : Operation .project
  | listVariables : Operation .project
  | getCollection : Operation .collection
  | updateCollection (updateData : CollectionUpdate) : Operation .collection
  | deleteCollection : Operation .collection
  | createRequest (fields : ApiRequestCreate) : Operation .collection
  | listRequests : Operation .collection
  | createSchedule (cronExpression timezoneName : String) (isActive : Bool) : Operation .collection
  | listSchedules : Operation .collection
  | createRun (dataRows : Option (List (Dict String String))) : Operation .collection
  | listRuns (status : Option TestRunStatus) : Operation .collection
  | getRequest : Operation .apiRequest
  | updateRequest (fields : ApiRequestUpdate) : Operation .apiRequest
  | deleteRequest : Operation .apiRequest
  | createAssertion (type : AssertionType) (config : Dict String Json) : Operation .apiRequest
  | listAssertions : Operation .apiRequest
  | deleteAssertion : Operation .assertion
  | getVariable : Operation .environmentVariable
  | updateVariable (fields : EnvironmentVariableUpdate) : Operation .environmentVariable
  | deleteVariable : Operation .environmentVariable
  | getSchedule : Operation .schedule
  | updateSchedule (fields : ScheduleUpdate) : Operation .schedule
  | deleteSchedule : Operation .schedule
  | getRun : Operation .testRun
  | listTasks (status : Option TestTaskStatus) (limit offset : ℕ) : Operation .testRun
  | getTaskDetailIn (testTaskId : UUID) : Operation .testRun
  | exportResults : Operation .testRun
  | getTaskDetail (testRunId : UUID) : Operation .testTask

/-- The operation as the service performs it, its result left out. -/
def Operation.apply (lib : Libraries) {k : Kind} (op : Operation k) (currentUser : User) (id : UUID) :
    ServiceM Unit :=
  match op with
  | .getOrganization => do let _ ← OrganizationService.getOrganization currentUser id
  | .updateOrganization name slug => do
    let _ ← OrganizationService.updateOrganization currentUser id name slug
  | .deleteOrganization => OrganizationService.deleteOrganization currentUser id
  | .listMembers => do let _ ← OrganizationService.listMembers currentUser id
  | .addMember email role => do let _ ← OrganizationService.addMember lib currentUser id email role
  | .updateMemberRole target role => do
    let _ ← OrganizationService.updateMemberRole currentUser id target role
  | .removeMember target => OrganizationService.removeMember currentUser id target
  | .createProject name description => do
    let _ ← ProjectService.createProject currentUser id name description
  | .listProjects => do let _ ← ProjectService.listProjects currentUser id
  | .getProject => do let _ ← ProjectService.getProject currentUser id
  | .updateProject updateData => do let _ ← ProjectService.updateProject currentUser id updateData
  | .deleteProject => ProjectService.deleteProject currentUser id
  | .createCollection name description => do
    let _ ← CollectionService.createCollection currentUser id name description
  | .listCollections => do let _ ← CollectionService.listCollections currentUser id
  | .createVariable key value isSecret => do
    let _ ← EnvironmentVariableService.createVariable currentUser id key value isSecret
  | .listVariables => do let _ ← EnvironmentVariableService.listVariables currentUser id
  | .getCollection => do let _ ← CollectionService.getCollection currentUser id
  | .updateCollection updateData => do
    let _ ← CollectionService.updateCollection currentUser id updateData
  | .deleteCollection => CollectionService.deleteCollection currentUser id
  | .createRequest fields => do let _ ← ApiRequestService.createRequest currentUser id fields
  | .listRequests => do let _ ← ApiRequestService.listRequests currentUser id
  | .createSchedule cronExpression timezoneName isActive => do
    let _ ← ScheduleService.createSchedule lib currentUser id cronExpression timezoneName isActive
  | .listSchedules => do let _ ← ScheduleService.listSchedules currentUser id
  | .createRun dataRows => do let _ ← TestRunService.createRun currentUser id dataRows
  | .listRuns status => do let _ ← TestRunService.listRuns currentUser id status
  | .getRequest => do let _ ← ApiRequestService.getRequest currentUser id
  | .updateRequest fields => do let _ ← ApiRequestService.updateRequest currentUser id fields
  | .deleteRequest => ApiRequestService.deleteRequest currentUser id
  | .createAssertion type config => do
    let _ ← AssertionService.createAssertion currentUser id type config
  | .listAssertions => do let _ ← AssertionService.listAssertions currentUser id
  | .deleteAssertion => AssertionService.deleteAssertion currentUser id
  | .getVariable => do let _ ← EnvironmentVariableService.getVariable currentUser id
  | .updateVariable fields => do let _ ← EnvironmentVariableService.updateVariable currentUser id fields
  | .deleteVariable => EnvironmentVariableService.deleteVariable currentUser id
  | .getSchedule => do let _ ← ScheduleService.getSchedule currentUser id
  | .updateSchedule fields => do let _ ← ScheduleService.updateSchedule lib currentUser id fields
  | .deleteSchedule => ScheduleService.deleteSchedule currentUser id
  | .getRun => do let _ ← TestRunService.getRun currentUser id
  | .listTasks status limit offset => do
    let _ ← TestRunService.listTasks currentUser id status limit offset
  | .getTaskDetailIn testTaskId => do let _ ← TestRunService.getTaskDetail currentUser id testTaskId
  | .exportResults => do let _ ← TestRunService.exportResults currentUser id
  | .getTaskDetail testRunId => do let _ ← TestRunService.getTaskDetail currentUser testRunId id

/-! Whose an id is, by the chain of parents up to the organization. -/

namespace Database

variable (db : Database)

def ownerOfProject (id : UUID) : Option UUID := (db.projects.get? id).map Project.organizationId

def ownerOfCollection (id : UUID) : Option UUID :=
  (db.collections.get? id).bind fun c => db.ownerOfProject c.projectId

def ownerOfRequest (id : UUID) : Option UUID :=
  (db.apiRequests.get? id).bind fun r => db.ownerOfCollection r.collectionId

def ownerOfRun (id : UUID) : Option UUID :=
  (db.testRuns.get? id).bind fun r => db.ownerOfCollection r.collectionId

def owner : Kind → UUID → Option UUID
  | .organization, id => (db.organizations.get? id).map Organization.id
  | .project, id => db.ownerOfProject id
  | .collection, id => db.ownerOfCollection id
  | .apiRequest, id => db.ownerOfRequest id
  | .assertion, id => (db.assertions.get? id).bind fun a => db.ownerOfRequest a.apiRequestId
  | .environmentVariable, id =>
    (db.environmentVariables.get? id).bind fun v => db.ownerOfProject v.projectId
  | .schedule, id => (db.schedules.get? id).bind fun s => db.ownerOfCollection s.collectionId
  | .testRun, id => db.ownerOfRun id
  | .testTask, id => (db.testTasks.get? id).bind fun t => db.ownerOfRun t.testRunId

def exists? : Kind → UUID → Bool
  | .organization, id => (db.organizations.get? id).isSome
  | .project, id => (db.projects.get? id).isSome
  | .collection, id => (db.collections.get? id).isSome
  | .apiRequest, id => (db.apiRequests.get? id).isSome
  | .assertion, id => (db.assertions.get? id).isSome
  | .environmentVariable, id => (db.environmentVariables.get? id).isSome
  | .schedule, id => (db.schedules.get? id).isSome
  | .testRun, id => (db.testRuns.get? id).isSome
  | .testTask, id => (db.testTasks.get? id).isSome

def isMember (organizationId userId : UUID) : Bool :=
  (db.organizationMembers.get? (organizationId, userId)).isSome

/-- The foreign key of `organization_members`. -/
def MembersBelong : Prop :=
  ∀ o u, db.isMember o u = true → (db.organizations.get? o).isSome = true

end Database

/-- Nothing is there under the id, or it belongs to an organization the user is not in. -/
inductive Barred (db : Database) (userId : UUID) (k : Kind) (id : UUID) : Prop
  | unknown (h : db.exists? k id = false)
  | foreign {o : UUID} (ho : db.owner k id = some o) (hm : db.isMember o userId = false)

/-- The computation ends with the error and has done nothing. -/
def Refused {α : Type} (m : ServiceM α) (e : AppError) (s : Session) : Prop :=
  m s = (.error e.toExn, s)

section
variable {α β : Type} {s : Session} {e : AppError} {m : ServiceM α}

theorem refused_raise : Refused (raise e : ServiceM α) e s := rfl

theorem Refused.bind (h : Refused m e s) (k : α → ServiceM β) : Refused (m >>= k) e s := bind_of_error k h

theorem refused_of_bind_ok {a : α} (k : α → ServiceM β) (hm : m s = (.ok a, s)) (hk : Refused (k a) e s) :
    Refused (m >>= k) e s := by
  unfold Refused
  rw [bind_of_ok k hm]
  exact hk

/-- A row is read and not found. -/
theorem refused_missing (hs : s.failed = false) {f : Database → Option α} (hf : f s.db = none)
    (k : α → ServiceM β) : Refused (do let row ← existing e (← query f); k row) e s := by
  refine refused_of_bind_ok _ (query_run hs f) ?_
  rw [hf]
  exact refused_raise.bind k

end

section
variable {s : Session} {lib : Libraries} {user : User} {id o : UUID} {e : AppError}
  {roles : Option (List OrganizationRole)}

/-! One lemma for each function that authorizes. -/

theorem requireMembership_refused (hs : s.failed = false) (hm : s.db.isMember o user.id = false) :
    Refused (requireMembership o user.id roles e) e s := by
  unfold requireMembership OrganizationMemberRepository.getMembership
  refine refused_missing hs ?_ _
  simpa [Database.isMember] using hm

theorem organizationIdForCollection_unknown (hs : s.failed = false) (h : s.db.collections.get? id = none) :
    Refused (organizationIdForCollection id e) e s := by
  unfold organizationIdForCollection CollectionRepository.getById
  exact refused_missing hs h _

theorem organizationIdForCollection_run (hs : s.failed = false) (h : s.db.ownerOfCollection id = some o) :
    organizationIdForCollection id e s = (.ok o, s) := by
  unfold Database.ownerOfCollection at h
  obtain ⟨c, hc, ho⟩ := Option.bind_eq_some_iff.1 h
  obtain ⟨p, hp, rfl⟩ := Option.map_eq_some_iff.1 ho
  unfold organizationIdForCollection CollectionRepository.getById ProjectRepository.getById
  rw [bind_found hs hc, bind_found hs hp]
  rfl

/-- Where the owner of a collection is looked up and the user is not in it. -/
theorem refused_outside_collection (hs : s.failed = false) (h : s.db.ownerOfCollection id = some o)
    (hm : s.db.isMember o user.id = false) {α : Type} {e' : AppError} (k : OrganizationMember → ServiceM α) :
    Refused (do
      let organizationId ← organizationIdForCollection id e'
      let membership ← requireMembership organizationId user.id roles e
      k membership) e s :=
  refused_of_bind_ok _ (organizationIdForCollection_run hs h) ((requireMembership_refused hs hm).bind k)

theorem organization_refused (hs : s.failed = false) (hfk : s.db.MembersBelong)
    (h : Barred s.db user.id .organization id) :
    Refused (requireMembership id user.id roles .organizationNotFound) .organizationNotFound s := by
  refine requireMembership_refused hs ?_
  cases h with
  | unknown h =>
    by_contra hm
    have := hfk id user.id (by simpa using hm)
    simp only [Database.exists?] at h
    rw [h] at this
    cases this
  | foreign ho hm =>
    obtain ⟨org, horg, rfl⟩ := Option.map_eq_some_iff.1 ho
    rwa [← (Table.get?_eq_some_iff.1 horg).2]

theorem getAuthorizedProject_refused (hs : s.failed = false) (h : Barred s.db user.id .project id) :
    Refused (ProjectService.getAuthorizedProject user id roles) .projectNotFound s := by
  unfold ProjectService.getAuthorizedProject ProjectRepository.getById
  cases h with
  | unknown h => exact refused_missing hs (by simpa [Database.exists?] using h) _
  | foreign ho hm =>
    obtain ⟨p, hp, rfl⟩ := Option.map_eq_some_iff.1 ho
    unfold Refused
    rw [bind_found hs hp]
    exact (requireMembership_refused hs hm).bind _

theorem getAuthorizedCollection_refused (hs : s.failed = false) (h : Barred s.db user.id .collection id) :
    Refused (CollectionService.getAuthorizedCollection user id roles) .collectionNotFound s := by
  unfold CollectionService.getAuthorizedCollection CollectionRepository.getById ProjectRepository.getById
  cases h with
  | unknown h => exact refused_missing hs (by simpa [Database.exists?] using h) _
  | foreign ho hm =>
    obtain ⟨c, hc, ho⟩ := Option.bind_eq_some_iff.1 ho
    obtain ⟨p, hp, rfl⟩ := Option.map_eq_some_iff.1 ho
    unfold Refused
    rw [bind_found hs hc, bind_found hs hp]
    exact (requireMembership_refused hs hm).bind _

/-- The collection a request is made in or looked up by. -/
theorem collection_refused (hs : s.failed = false) (h : Barred s.db user.id .collection id) {α : Type}
    (k : OrganizationMember → ServiceM α) :
    Refused (do
      let organizationId ← organizationIdForCollection id .collectionNotFound
      let membership ← requireMembership organizationId user.id roles .collectionNotFound
      k membership) .collectionNotFound s := by
  cases h with
  | unknown h => exact (organizationIdForCollection_unknown hs (by simpa [Database.exists?] using h)).bind _
  | foreign ho hm => exact refused_outside_collection hs ho hm k

theorem getAuthorizedRequest_refused (hs : s.failed = false) (h : Barred s.db user.id .apiRequest id) :
    Refused (ApiRequestService.getAuthorizedRequest user id roles) .apiRequestNotFound s := by
  unfold ApiRequestService.getAuthorizedRequest ApiRequestRepository.getById
  cases h with
  | unknown h => exact refused_missing hs (by simpa [Database.exists?] using h) _
  | foreign ho hm =>
    obtain ⟨r, hr, ho⟩ := Option.bind_eq_some_iff.1 ho
    unfold Refused
    rw [bind_found hs hr]
    exact refused_outside_collection hs ho hm _

theorem organizationIdForRequest_run (hs : s.failed = false) (h : s.db.ownerOfRequest id = some o) :
    AssertionService.organizationIdForRequest id s = (.ok o, s) := by
  unfold AssertionService.organizationIdForRequest ApiRequestRepository.getById
  obtain ⟨r, hr, ho⟩ := Option.bind_eq_some_iff.1 h
  rw [bind_found hs hr]
  exact organizationIdForCollection_run hs ho

/-- The request an assertion is made for or looked up by. -/
theorem request_refused (hs : s.failed = false) (h : Barred s.db user.id .apiRequest id) {α : Type}
    (k : OrganizationMember → ServiceM α) :
    Refused (do
      let organizationId ← AssertionService.organizationIdForRequest id
      let membership ← requireMembership organizationId user.id roles .apiRequestNotFound
      k membership) .apiRequestNotFound s := by
  cases h with
  | unknown h =>
    refine Refused.bind ?_ _
    unfold AssertionService.organizationIdForRequest ApiRequestRepository.getById
    exact refused_missing hs (by simpa [Database.exists?] using h) _
  | foreign ho hm =>
    exact refused_of_bind_ok _ (organizationIdForRequest_run hs ho)
      ((requireMembership_refused hs hm).bind k)

theorem deleteAssertion_refused (hs : s.failed = false) (h : Barred s.db user.id .assertion id) :
    Refused (AssertionService.deleteAssertion user id) .assertionNotFound s := by
  unfold AssertionService.deleteAssertion AssertionRepository.getById
  cases h with
  | unknown h => exact refused_missing hs (by simpa [Database.exists?] using h) _
  | foreign ho hm =>
    obtain ⟨a, ha, ho⟩ := Option.bind_eq_some_iff.1 ho
    unfold Refused
    rw [bind_found hs ha]
    exact refused_of_bind_ok _ (organizationIdForRequest_run hs ho)
      ((requireMembership_refused hs hm).bind _)

theorem organizationIdForProject_run (hs : s.failed = false) (h : s.db.ownerOfProject id = some o) :
    EnvironmentVariableService.organizationIdForProject id s = (.ok o, s) := by
  unfold EnvironmentVariableService.organizationIdForProject ProjectRepository.getById
  obtain ⟨p, hp, rfl⟩ := Option.map_eq_some_iff.1 h
  rw [bind_found hs hp]
  rfl

/-- The project a variable is defined in or looked up by. -/
theorem project_refused (hs : s.failed = false) (h : Barred s.db user.id .project id) {α : Type}
    (k : OrganizationMember → ServiceM α) :
    Refused (do
      let organizationId ← EnvironmentVariableService.organizationIdForProject id
      let membership ← requireMembership organizationId user.id roles .projectNotFound
      k membership) .projectNotFound s := by
  cases h with
  | unknown h =>
    refine Refused.bind ?_ _
    unfold EnvironmentVariableService.organizationIdForProject ProjectRepository.getById
    exact refused_missing hs (by simpa [Database.exists?] using h) _
  | foreign ho hm =>
    exact refused_of_bind_ok _ (organizationIdForProject_run hs ho)
      ((requireMembership_refused hs hm).bind k)

theorem getAuthorizedVariable_refused (hs : s.failed = false)
    (h : Barred s.db user.id .environmentVariable id) :
    Refused (EnvironmentVariableService.getAuthorizedVariable user id) .environmentVariableNotFound s := by
  unfold EnvironmentVariableService.getAuthorizedVariable EnvironmentVariableRepository.getById
  cases h with
  | unknown h => exact refused_missing hs (by simpa [Database.exists?] using h) _
  | foreign ho hm =>
    obtain ⟨v, hv, ho⟩ := Option.bind_eq_some_iff.1 ho
    unfold Refused
    rw [bind_found hs hv]
    exact refused_of_bind_ok _ (organizationIdForProject_run hs ho)
      ((requireMembership_refused hs hm).bind _)

theorem getAuthorizedSchedule_refused (hs : s.failed = false) (h : Barred s.db user.id .schedule id) :
    Refused (ScheduleService.getAuthorizedSchedule user id roles) .scheduleNotFound s := by
  unfold ScheduleService.getAuthorizedSchedule ScheduleRepository.getById
  cases h with
  | unknown h => exact refused_missing hs (by simpa [Database.exists?] using h) _
  | foreign ho hm =>
    obtain ⟨r, hr, ho⟩ := Option.bind_eq_some_iff.1 ho
    unfold Refused
    rw [bind_found hs hr]
    exact refused_outside_collection hs ho hm _

theorem getAuthorizedRun_refused (hs : s.failed = false) (h : Barred s.db user.id .testRun id) :
    Refused (TestRunService.getAuthorizedRun user id) .testRunNotFound s := by
  unfold TestRunService.getAuthorizedRun TestRunRepository.getById
  cases h with
  | unknown h => exact refused_missing hs (by simpa [Database.exists?] using h) _
  | foreign ho hm =>
    obtain ⟨r, hr, ho⟩ := Option.bind_eq_some_iff.1 ho
    unfold Refused
    rw [bind_found hs hr]
    exact refused_outside_collection hs ho hm _

/-! A task is looked up under a run. -/

/-- The run is the user's to see, or asking for it is an application error. -/
theorem getAuthorizedRun_cases (user : User) (id : UUID) (hs : s.failed = false) :
    (∃ r, TestRunService.getAuthorizedRun user id s = (.ok r, s)) ∨
      ∃ e, Refused (TestRunService.getAuthorizedRun user id) e s := by
  unfold TestRunService.getAuthorizedRun TestRunRepository.getById
  cases hr : s.db.testRuns.get? id with
  | none => exact .inr ⟨_, refused_missing hs hr _⟩
  | some r =>
    unfold Refused
    rw [bind_found hs hr]
    cases hc : s.db.collections.get? r.collectionId with
    | none => exact .inr ⟨_, (organizationIdForCollection_unknown hs hc).bind _⟩
    | some c =>
      cases hp : s.db.projects.get? c.projectId with
      | none =>
        refine .inr ⟨.testRunNotFound, Refused.bind ?_ _⟩
        unfold organizationIdForCollection CollectionRepository.getById ProjectRepository.getById Refused
        rw [bind_found hs hc]
        exact refused_missing hs hp _
      | some p =>
        have ho : s.db.ownerOfCollection r.collectionId = some p.organizationId := by
          simp [Database.ownerOfCollection, Database.ownerOfProject, hc, hp]
        cases hm : s.db.organizationMembers.get? (p.organizationId, user.id) with
        | none =>
          exact .inr ⟨_, refused_outside_collection hs ho (by simp [Database.isMember, hm]) _⟩
        | some m =>
          refine .inl ⟨r, ?_⟩
          rw [bind_of_ok _ (organizationIdForCollection_run hs ho)]
          unfold requireMembership OrganizationMemberRepository.getMembership
          refine bind_of_ok (a := m) _ ?_
          rw [bind_found hs hm]
          rfl

/-- A task of somebody else's run is as absent under the run as one that does not exist. -/
theorem getTaskDetail_refused {testRunId : UUID} {r : TestRun} (hs : s.failed = false)
    (hrun : TestRunService.getAuthorizedRun user testRunId s = (.ok r, s))
    (h : Barred s.db user.id .testTask id) :
    Refused (TestRunService.getTaskDetail user testRunId id) .testTaskNotFound s := by
  unfold TestRunService.getTaskDetail TestTaskRepository.getById
  refine refused_of_bind_ok _ hrun ?_
  cases h with
  | unknown h => exact refused_missing hs (by simpa [Database.exists?] using h) _
  | foreign ho hm =>
    obtain ⟨t, ht, ho⟩ := Option.bind_eq_some_iff.1 ho
    unfold Refused
    rw [bind_found hs ht]
    -- the run the task is in is not the one the user was let into
    have hne : t.testRunId ≠ testRunId := by
      rintro rfl
      have := getAuthorizedRun_refused hs (.foreign ho hm : Barred s.db user.id .testRun t.testRunId)
      rw [Refused, hrun] at this
      cases this
    rw [if_pos hne]
    exact refused_raise.bind _

/-! The operations, by what their id names. -/

theorem Operation.organization_refused (op : Operation .organization) (hs : s.failed = false)
    (hfk : s.db.MembersBelong) (h : Barred s.db user.id .organization id) :
    Refused (op.apply lib user id) .organizationNotFound s := by
  have hm (roles) : Refused (requireMembership id user.id roles .organizationNotFound) _ s :=
    ApiTesting.organization_refused hs hfk h
  cases op with
  | getOrganization => exact ((hm _).bind _).bind _
  | updateOrganization => exact ((hm _).bind _).bind _
  | deleteOrganization => exact (hm _).bind _
  | listMembers => exact ((hm _).bind _).bind _
  | addMember => exact ((hm _).bind _).bind _
  | updateMemberRole => exact ((hm _).bind _).bind _
  | removeMember target =>
    simp only [apply, OrganizationService.removeMember]
    split
    · exact (hm _).bind _
    · exact (hm _).bind _
  | createProject => exact ((hm _).bind _).bind _
  | listProjects => exact ((hm _).bind _).bind _

theorem Operation.project_refused (op : Operation .project) (hs : s.failed = false)
    (h : Barred s.db user.id .project id) : Refused (op.apply lib user id) .projectNotFound s := by
  have hp (roles) : Refused (ProjectService.getAuthorizedProject user id roles) _ s :=
    getAuthorizedProject_refused hs h
  cases op with
  | getProject => exact (hp _).bind _
  | updateProject => exact ((hp _).bind _).bind _
  | deleteProject => exact (hp _).bind _
  | createCollection => exact ((hp _).bind _).bind _
  | listCollections => exact ((hp _).bind _).bind _
  | createVariable => exact (ApiTesting.project_refused hs h _).bind _
  | listVariables => exact (ApiTesting.project_refused hs h _).bind _

theorem Operation.collection_refused (op : Operation .collection) (hs : s.failed = false)
    (h : Barred s.db user.id .collection id) : Refused (op.apply lib user id) .collectionNotFound s := by
  have hc (roles) : Refused (CollectionService.getAuthorizedCollection user id roles) _ s :=
    getAuthorizedCollection_refused hs h
  cases op with
  | getCollection => exact (hc _).bind _
  | updateCollection => exact ((hc _).bind _).bind _
  | deleteCollection => exact (hc _).bind _
  | createRequest => exact (ApiTesting.collection_refused hs h _).bind _
  | listRequests => exact (ApiTesting.collection_refused hs h _).bind _
  | createSchedule => exact (ApiTesting.collection_refused hs h _).bind _
  | listSchedules => exact (ApiTesting.collection_refused hs h _).bind _
  | createRun => exact (ApiTesting.collection_refused hs h _).bind _
  | listRuns => exact (ApiTesting.collection_refused hs h _).bind _

theorem Operation.apiRequest_refused (op : Operation .apiRequest) (hs : s.failed = false)
    (h : Barred s.db user.id .apiRequest id) : Refused (op.apply lib user id) .apiRequestNotFound s := by
  have hr (roles) : Refused (ApiRequestService.getAuthorizedRequest user id roles) _ s :=
    getAuthorizedRequest_refused hs h
  cases op with
  | getRequest => exact (hr _).bind _
  | updateRequest => exact ((hr _).bind _).bind _
  | deleteRequest => exact (hr _).bind _
  | createAssertion => exact (request_refused hs h _).bind _
  | listAssertions => exact (request_refused hs h _).bind _

theorem Operation.assertion_refused (op : Operation .assertion) (hs : s.failed = false)
    (h : Barred s.db user.id .assertion id) : Refused (op.apply lib user id) .assertionNotFound s := by
  cases op with
  | deleteAssertion => exact deleteAssertion_refused hs h

theorem Operation.environmentVariable_refused (op : Operation .environmentVariable) (hs : s.failed = false)
    (h : Barred s.db user.id .environmentVariable id) :
    Refused (op.apply lib user id) .environmentVariableNotFound s := by
  have hv := getAuthorizedVariable_refused hs h
  cases op with
  | getVariable => exact (hv.bind _).bind _
  | updateVariable => exact (hv.bind _).bind _
  | deleteVariable => exact hv.bind _

theorem Operation.schedule_refused (op : Operation .schedule) (hs : s.failed = false)
    (h : Barred s.db user.id .schedule id) : Refused (op.apply lib user id) .scheduleNotFound s := by
  have hsch (roles) : Refused (ScheduleService.getAuthorizedSchedule user id roles) _ s :=
    getAuthorizedSchedule_refused hs h
  cases op with
  | getSchedule => exact (hsch _).bind _
  | updateSchedule => exact ((hsch _).bind _).bind _
  | deleteSchedule => exact (hsch _).bind _

theorem Operation.testRun_refused (op : Operation .testRun) (hs : s.failed = false)
    (h : Barred s.db user.id .testRun id) : Refused (op.apply lib user id) .testRunNotFound s := by
  have hr := getAuthorizedRun_refused hs h
  cases op with
  | getRun => exact hr.bind _
  | listTasks => exact (hr.bind _).bind _
  | getTaskDetailIn => exact (hr.bind _).bind _
  | exportResults => exact (hr.bind _).bind _

/-- Which error a task id gets depends on the run, not on the task. -/
theorem Operation.testTask_refused (op : Operation .testTask) (hs : s.failed = false) :
    ∃ e, ∀ id, Barred s.db user.id .testTask id → Refused (op.apply lib user id) e s := by
  cases op with
  | getTaskDetail testRunId =>
    rcases getAuthorizedRun_cases user testRunId hs with ⟨r, hr⟩ | ⟨e, he⟩
    · exact ⟨_, fun id h => (getTaskDetail_refused hs hr h).bind _⟩
    · exact ⟨e, fun id _ => (he.bind _).bind _⟩

/-- Each operation has one error for every id the user is barred from. -/
theorem Operation.refused {k : Kind} (op : Operation k) (lib : Libraries) (user : User)
    (hs : s.failed = false) (hfk : s.db.MembersBelong) :
    ∃ e, ∀ id, Barred s.db user.id k id → Refused (op.apply lib user id) e s := by
  cases k with
  | organization => exact ⟨_, fun id h => op.organization_refused hs hfk h⟩
  | project => exact ⟨_, fun id h => op.project_refused hs h⟩
  | collection => exact ⟨_, fun id h => op.collection_refused hs h⟩
  | apiRequest => exact ⟨_, fun id h => op.apiRequest_refused hs h⟩
  | assertion => exact ⟨_, fun id h => op.assertion_refused hs h⟩
  | environmentVariable => exact ⟨_, fun id h => op.environmentVariable_refused hs h⟩
  | schedule => exact ⟨_, fun id h => op.schedule_refused hs h⟩
  | testRun => exact ⟨_, fun id h => op.testRun_refused hs h⟩
  | testTask => exact op.testTask_refused hs

end

/-- An id of an organization the user is not in gets what an id that does not exist
gets, and neither touches a row or the queue. -/
theorem foreign_as_unknown (lib : Libraries) {k : Kind} (op : Operation k) (user : User) (id o : UUID)
    (s : Session) (hs : s.failed = false) (hfk : s.db.MembersBelong) (ho : s.db.owner k id = some o)
    (hm : s.db.isMember o user.id = false) :
    ∃ e : AppError, op.apply lib user id s = (.error e.toExn, s) ∧
      ∀ unknown, s.db.exists? k unknown = false →
        op.apply lib user unknown s = (.error e.toExn, s) := by
  obtain ⟨e, he⟩ := op.refused lib user hs hfk
  exact ⟨e, he id (.foreign ho hm), fun unknown hu => he unknown (.unknown hu)⟩

/-- One organization, with its owner and one assertion at the end of the chain. -/
def tenant : Database :=
  { Database.empty with
    organizations := Table.empty.set ⟨1, "Acme", "acme", 0⟩
    organizationMembers := Table.empty.set ⟨1, 2, .owner, 0⟩
    projects := Table.empty.set ⟨3, 1, "Billing", none, 2, 0⟩
    collections := Table.empty.set ⟨4, 3, "Smoke", none, 0⟩
    apiRequests := Table.empty.set ⟨5, 4, "Ping", .get, "http://ping", .empty, .empty, none, 0, 1000, [], 0⟩
    assertions := Table.empty.set ⟨6, 5, .statusCodeEquals, .empty, 0⟩ }

theorem tenant_membersBelong : tenant.MembersBelong := by
  intro o u h
  obtain ⟨m, hm⟩ := Option.isSome_iff_exists.1 h
  have hrow := Table.get?_eq_some_iff.1 hm
  obtain rfl : m = ⟨1, 2, .owner, 0⟩ := List.mem_singleton.1 hrow.1
  obtain ⟨rfl, rfl⟩ := Prod.mk.inj hrow.2
  rfl

def tenantSession : Session := World.session ⟨tenant, .empty, 10⟩ ⟨0, fun _ => .ok, .ok, .table⟩

theorem foreign_as_unknown_assertion :
    ∃ e : AppError,
      Operation.deleteAssertion.apply plainLibraries ⟨7, "eve@example.com"⟩ 6 tenantSession =
        (.error e.toExn, tenantSession) ∧
      Operation.deleteAssertion.apply plainLibraries ⟨7, "eve@example.com"⟩ 8 tenantSession =
        (.error e.toExn, tenantSession) := by
  obtain ⟨e, hforeign, hunknown⟩ := foreign_as_unknown plainLibraries .deleteAssertion
    ⟨7, "eve@example.com"⟩ 6 1 tenantSession rfl tenant_membersBelong rfl rfl
  exact ⟨e, hforeign, hunknown 8 rfl⟩

end ApiTesting
