import ApiTesting.Lib.References
import ApiTesting.Proofs.Subtrees

/-! What a request may do to the database, write by write. A write is to rows of one
organization, and says what the constraints and the service have checked before it; the
foreign keys and the rows of every other organization outlast it. -/

namespace ApiTesting

open Keyed

/-- The foreign keys, and that a task sends a request of the collection its run is of. -/
structure Database.Linked (db : Database) : Prop where
  members : Refers db.organizationMembers.rows OrganizationMember.organizationId db.organizations
  memberUsers : Refers db.organizationMembers.rows OrganizationMember.userId db.users
  projects : Refers db.projects.rows Project.organizationId db.organizations
  projectCreators : Refers db.projects.rows Project.createdBy db.users
  collections : Refers db.collections.rows Collection.projectId db.projects
  apiRequests : Refers db.apiRequests.rows ApiRequest.collectionId db.collections
  assertions : Refers db.assertions.rows Assertion.apiRequestId db.apiRequests
  environmentVariables : Refers db.environmentVariables.rows EnvironmentVariable.projectId db.projects
  schedules : Refers db.schedules.rows Schedule.collectionId db.collections
  scheduleCreators : Refers db.schedules.rows Schedule.createdBy db.users
  testRuns : Refers db.testRuns.rows TestRun.collectionId db.collections
  runInitiators : Refers db.testRuns.rows TestRun.initiatedBy db.users
  testTasks : Refers db.testTasks.rows TestTask.testRunId db.testRuns
  taskRequests : Refers db.testTasks.rows TestTask.apiRequestId db.apiRequests
  requestResults : Refers db.requestResults RequestResult.testTaskId db.testTasks
  ofCollection : ∀ t ∈ db.testTasks.rows, ∀ run request, db.testRuns.get? t.testRunId = some run →
    db.apiRequests.get? t.apiRequestId = some request → request.collectionId = run.collectionId

/-- Only rows of the organization. -/
structure Subtree.Within (T : Subtree) (db : Database) (o : UUID) : Prop where
  organizations : ∀ r ∈ db.organizations.rows, T .organization r.id → r.id = o
  members : ∀ m ∈ db.organizationMembers.rows, T .members m.organizationId → m.organizationId = o
  projects : ∀ p ∈ db.projects.rows, T .project p.id → p.organizationId = o
  collections : ∀ c ∈ db.collections.rows, T .collection c.id → db.ownerOfProject c.projectId = some o
  requests : ∀ r ∈ db.apiRequests.rows, T .request r.id → db.ownerOfCollection r.collectionId = some o

/-- With a row all rows that refer to it. -/
structure Subtree.Closed (T : Subtree) (db : Database) : Prop where
  members : ∀ m ∈ db.organizationMembers.rows, T .organization m.organizationId → T .members m.organizationId
  projects : ∀ p ∈ db.projects.rows, T .organization p.organizationId → T .project p.id
  collections : ∀ c ∈ db.collections.rows, T .project c.projectId → T .collection c.id
  requests : ∀ r ∈ db.apiRequests.rows, T .collection r.collectionId → T .request r.id

/-- One write to rows of an organization. A row that replaces another one keeps its parent. -/
inductive Edit (o : UUID) (db : Database) : Database → Prop
  | organization (r : Organization) (hid : r.id = o) :
    Edit o db { db with organizations := db.organizations.set r }
  | member (m : OrganizationMember) (ho : m.organizationId = o)
    (horganization : (db.organizations.get? m.organizationId).isSome) (huser : (db.users.get? m.userId).isSome) :
    Edit o db { db with organizationMembers := db.organizationMembers.set m }
  | project (p : Project) (ho : p.organizationId = o)
    (hold : ∀ q, db.projects.get? p.id = some q → q.organizationId = p.organizationId)
    (horganization : (db.organizations.get? p.organizationId).isSome)
    (huser : (db.users.get? p.createdBy).isSome) :
    Edit o db { db with projects := db.projects.set p }
  | collection (c : Collection) (ho : db.ownerOfProject c.projectId = some o)
    (hold : ∀ q, db.collections.get? c.id = some q → q.projectId = c.projectId) :
    Edit o db { db with collections := db.collections.set c }
  | apiRequest (r : ApiRequest) (ho : db.ownerOfCollection r.collectionId = some o)
    (hold : ∀ q, db.apiRequests.get? r.id = some q → q.collectionId = r.collectionId) :
    Edit o db { db with apiRequests := db.apiRequests.set r }
  | assertion (a : Assertion) (ho : db.ownerOfRequest a.apiRequestId = some o)
    (hnew : db.assertions.get? a.id = none) :
    Edit o db { db with assertions := db.assertions.set a }
  | environmentVariable (v : EnvironmentVariable) (ho : db.ownerOfProject v.projectId = some o)
    (hold : ∀ q, db.environmentVariables.get? v.id = some q → q.projectId = v.projectId) :
    Edit o db { db with environmentVariables := db.environmentVariables.set v }
  | schedule (sc : Schedule) (ho : db.ownerOfCollection sc.collectionId = some o)
    (hold : ∀ q, db.schedules.get? sc.id = some q → q.collectionId = sc.collectionId)
    (huser : (db.users.get? sc.createdBy).isSome) :
    Edit o db { db with schedules := db.schedules.set sc }
  | testRun (r : TestRun) (ho : db.ownerOfCollection r.collectionId = some o)
    (hnew : db.testRuns.get? r.id = none) (huser : (db.users.get? r.initiatedBy).isSome) :
    Edit o db { db with testRuns := db.testRuns.set r }
  | testTask (t : TestTask) (run : TestRun) (request : ApiRequest)
    (ho : db.ownerOfCollection run.collectionId = some o) (hnew : db.testTasks.get? t.id = none)
    (hrun : db.testRuns.get? t.testRunId = some run)
    (hrequest : db.apiRequests.get? t.apiRequestId = some request)
    (hcollection : request.collectionId = run.collectionId) :
    Edit o db { db with testTasks := db.testTasks.set t }
  | removeMember (userId : UUID) :
    Edit o db { db with organizationMembers := db.organizationMembers.erase (o, userId) }
  | removeAssertion (a : Assertion) (ha : a ∈ db.assertions.rows)
    (ho : db.ownerOfRequest a.apiRequestId = some o) :
    Edit o db { db with assertions := db.assertions.erase a.id }
  | removeVariable (v : EnvironmentVariable) (hv : v ∈ db.environmentVariables.rows)
    (ho : db.ownerOfProject v.projectId = some o) :
    Edit o db { db with environmentVariables := db.environmentVariables.erase v.id }
  | removeSchedule (sc : Schedule) (hsc : sc ∈ db.schedules.rows)
    (ho : db.ownerOfCollection sc.collectionId = some o) :
    Edit o db { db with schedules := db.schedules.erase sc.id }
  | prune (T : Subtree) (hwithin : T.Within db o) (hclosed : T.Closed db) (hunused : db.Unused T) :
    Edit o db (db.prune T)

section
variable {db db' : Database} {o e : UUID}

theorem ownerOfProject_isSome {i : UUID} (h : db.ownerOfProject i = some o) : (db.projects.get? i).isSome := by
  rw [Database.ownerOfProject, Option.map_eq_some_iff] at h
  obtain ⟨p, hp, -⟩ := h
  rw [hp]
  rfl

theorem ownerOfCollection_isSome {i : UUID} (h : db.ownerOfCollection i = some o) :
    (db.collections.get? i).isSome := by
  rw [Database.ownerOfCollection, Option.bind_eq_some_iff] at h
  obtain ⟨c, hc, -⟩ := h
  rw [hc]
  rfl

theorem ownerOfRequest_isSome {i : UUID} (h : db.ownerOfRequest i = some o) : (db.apiRequests.get? i).isSome := by
  rw [Database.ownerOfRequest, Option.bind_eq_some_iff] at h
  obtain ⟨r, hr, -⟩ := h
  rw [hr]
  rfl

/-- A row outside the subtree refers to a row outside of it. -/
theorem refers_filter {ρ ρ' κ κ' : Type} [DecidableEq κ] {key : ρ → κ} {key' : ρ' → κ'} {t : Table key}
    {u : Table key'} {foreign : ρ' → κ} {p : κ → Bool} {q : ρ' → Bool} (h : Refers u.rows foreign t)
    (hp : ∀ r ∈ u.rows, p (foreign r) → q r) :
    Refers (u.filter fun r => !q r).rows foreign (t.filter fun r => !p (key r)) := by
  refine (h.filter _).filter_referenced fun r hr x _ hx => ?_
  obtain ⟨hrow, hq⟩ := Table.mem_filter.1 hr
  cases hkey : p (key x) with
  | false => rfl
  | true => simp [hp r hrow (hx ▸ hkey)] at hq

theorem Database.Linked.prune (h : db.Linked) {T : Subtree} (hclosed : T.Closed db) (hunused : db.Unused T) :
    (db.prune T).Linked := by
  exact
    { members := refers_filter (p := T .organization) h.members hclosed.members
      memberUsers := h.memberUsers.filter _
      projects := refers_filter (p := T .organization) h.projects hclosed.projects
      projectCreators := h.projectCreators.filter _
      collections := refers_filter (p := T .project) h.collections hclosed.collections
      apiRequests := refers_filter (p := T .collection) h.apiRequests hclosed.requests
      assertions := refers_filter (p := T .request) h.assertions fun _ _ ha => ha
      environmentVariables := refers_filter (p := T .project) h.environmentVariables fun _ _ hv => hv
      schedules := refers_filter (p := T .collection) h.schedules fun _ _ hsc => hsc
      scheduleCreators := h.scheduleCreators.filter _
      testRuns := h.testRuns.filter_referenced fun r hr c _ hc => by rw [hc, hunused.1 r hr]; rfl
      runInitiators := h.runInitiators
      testTasks := h.testTasks
      taskRequests := h.taskRequests.filter_referenced fun t ht r _ hr => by rw [hr, hunused.2 t ht]; rfl
      requestResults := h.requestResults
      ofCollection := by
        intro t ht run request hrun hrequest
        have hrow := (Table.mem_filter.1 (Table.get?_eq_some_iff.1 hrequest).1).1
        have hid := (Table.get?_eq_some_iff.1 hrequest).2
        exact h.ofCollection t ht run request hrun (Table.get?_eq_some_iff.2 ⟨hrow, hid⟩) }

/-- The foreign keys outlast a write. -/
theorem Edit.linked (he : Edit o db db') (h : db.Linked) : db'.Linked := by
  cases he with
  | organization r hid =>
    exact { h with members := h.members.set_referenced r, projects := h.projects.set_referenced r }
  | member m ho horganization huser =>
    exact { h with members := h.members.set horganization, memberUsers := h.memberUsers.set huser }
  | project p ho hold horganization huser =>
    exact
      { h with
        projects := h.projects.set horganization
        projectCreators := h.projectCreators.set huser
        collections := h.collections.set_referenced p
        environmentVariables := h.environmentVariables.set_referenced p }
  | collection c ho hold =>
    exact
      { h with
        collections := h.collections.set (ownerOfProject_isSome ho)
        apiRequests := h.apiRequests.set_referenced c
        schedules := h.schedules.set_referenced c
        testRuns := h.testRuns.set_referenced c }
  | apiRequest r ho hold =>
    exact
      { h with
        apiRequests := h.apiRequests.set (ownerOfCollection_isSome ho)
        assertions := h.assertions.set_referenced r
        taskRequests := h.taskRequests.set_referenced r
        ofCollection := by
          intro t ht run request hrun hrequest
          rw [Table.get?_set] at hrequest
          split at hrequest
          · rename_i hid
            cases hrequest
            obtain ⟨q, hq⟩ := Option.isSome_iff_exists.1 (h.taskRequests t ht)
            rw [← hold q (hid ▸ hq)]
            exact h.ofCollection t ht run q hrun hq
          · exact h.ofCollection t ht run request hrun hrequest }
  | assertion a ho hnew => exact { h with assertions := h.assertions.set (ownerOfRequest_isSome ho) }
  | environmentVariable v ho hold =>
    exact { h with environmentVariables := h.environmentVariables.set (ownerOfProject_isSome ho) }
  | schedule sc ho hold huser =>
    exact
      { h with
        schedules := h.schedules.set (ownerOfCollection_isSome ho)
        scheduleCreators := h.scheduleCreators.set huser }
  | testRun r ho hnew huser =>
    exact
      { h with
        testRuns := h.testRuns.set (ownerOfCollection_isSome ho)
        runInitiators := h.runInitiators.set huser
        testTasks := h.testTasks.set_referenced r
        ofCollection := by
          intro t ht run request hrun hrequest
          rw [Table.get?_set] at hrun
          split at hrun
          · rename_i hid
            have hsome := h.testTasks t ht
            rw [hid, hnew] at hsome
            cases hsome
          · exact h.ofCollection t ht run request hrun hrequest }
  | testTask t run request ho hnew hrun hrequest hcollection =>
    exact
      { h with
        testTasks := h.testTasks.set (by rw [hrun]; rfl)
        taskRequests := h.taskRequests.set (by rw [hrequest]; rfl)
        requestResults := h.requestResults.set_referenced t
        ofCollection := by
          intro q hq run' request' hrun' hrequest'
          rcases Table.mem_rows_set hq with rfl | hq
          · rw [hrun] at hrun'
            rw [hrequest] at hrequest'
            cases hrun'
            cases hrequest'
            exact hcollection
          · exact h.ofCollection q hq run' request' hrun' hrequest' }
  | removeMember userId => exact { h with members := h.members.filter _, memberUsers := h.memberUsers.filter _ }
  | removeAssertion a ha ho => exact { h with assertions := h.assertions.filter _ }
  | removeVariable v hv ho => exact { h with environmentVariables := h.environmentVariables.filter _ }
  | removeSchedule sc hsc ho =>
    exact { h with schedules := h.schedules.filter _, scheduleCreators := h.scheduleCreators.filter _ }
  | prune T hwithin hclosed hunused => exact h.prune hclosed hunused

/-- The rows of an organization, in the tables they are in. -/
def Database.part (db : Database) (o : UUID) : Database where
  users := .empty
  organizations := db.organizations.filter fun r => r.id = o
  organizationMembers := db.organizationMembers.filter fun m => m.organizationId = o
  projects := db.projects.filter fun p => p.organizationId = o
  collections := db.collections.filter fun c => db.ownerOfProject c.projectId = some o
  environmentVariables := db.environmentVariables.filter fun v => db.ownerOfProject v.projectId = some o
  apiRequests := db.apiRequests.filter fun r => db.ownerOfCollection r.collectionId = some o
  schedules := db.schedules.filter fun sc => db.ownerOfCollection sc.collectionId = some o
  testRuns := db.testRuns.filter fun r => db.ownerOfCollection r.collectionId = some o
  assertions := db.assertions.filter fun a => db.ownerOfRequest a.apiRequestId = some o
  testTasks := db.testTasks.filter fun t => db.ownerOfRun t.testRunId = some o
  requestResults := db.requestResults.filter fun r => db.owner .testTask r.testTaskId = some o
  executionLogs := db.executionLogs.filter fun l => l.testRunId.any fun i => db.ownerOfRun i = some o

/-! Who owns an id can be told from the rows of the owner alone. -/

theorem isSome_get?_filter {ρ κ : Type} [DecidableEq κ] {key : ρ → κ} (t : Table key) (p : ρ → Bool) (k : κ) :
    ((t.filter p).get? k).isSome ↔ ∃ r, t.get? k = some r ∧ p r := by
  rw [Table.get?_filter]
  cases t.get? k <;> simp [Option.filter]

theorem ownerOfProject_iff {i : UUID} :
    db.ownerOfProject i = some o ↔ ((db.part o).projects.get? i).isSome := by
  rw [Database.part, isSome_get?_filter, Database.ownerOfProject, Option.map_eq_some_iff]
  simp

theorem ownerOfCollection_iff {i : UUID} :
    db.ownerOfCollection i = some o ↔ ((db.part o).collections.get? i).isSome := by
  rw [Database.part, isSome_get?_filter, Database.ownerOfCollection, Option.bind_eq_some_iff]
  simp

theorem ownerOfRequest_iff {i : UUID} :
    db.ownerOfRequest i = some o ↔ ((db.part o).apiRequests.get? i).isSome := by
  rw [Database.part, isSome_get?_filter, Database.ownerOfRequest, Option.bind_eq_some_iff]
  simp

theorem ownerOfRun_iff {i : UUID} : db.ownerOfRun i = some o ↔ ((db.part o).testRuns.get? i).isSome := by
  rw [Database.part, isSome_get?_filter, Database.ownerOfRun, Option.bind_eq_some_iff]
  simp

theorem ownerOfTask_iff {i : UUID} :
    db.owner .testTask i = some o ↔ ((db.part o).testTasks.get? i).isSome := by
  rw [Database.part, isSome_get?_filter, Database.owner, Option.bind_eq_some_iff]
  simp

/-- The rows that were those of the organization are where they were, and no others have
come in their place. -/
structure Outside (o : UUID) (db db' : Database) : Prop where
  organizations : db'.organizations.filter (fun r => r.id = o) = (db.part o).organizations := by rfl
  organizationMembers : db'.organizationMembers.filter (fun m => m.organizationId = o) =
    (db.part o).organizationMembers := by rfl
  projects : db'.projects.filter (fun p => p.organizationId = o) = (db.part o).projects := by rfl
  collections : db'.collections.filter (fun c => db.ownerOfProject c.projectId = some o) =
    (db.part o).collections := by rfl
  environmentVariables : db'.environmentVariables.filter (fun v => db.ownerOfProject v.projectId = some o) =
    (db.part o).environmentVariables := by rfl
  apiRequests : db'.apiRequests.filter (fun r => db.ownerOfCollection r.collectionId = some o) =
    (db.part o).apiRequests := by rfl
  schedules : db'.schedules.filter (fun sc => db.ownerOfCollection sc.collectionId = some o) =
    (db.part o).schedules := by rfl
  testRuns : db'.testRuns.filter (fun r => db.ownerOfCollection r.collectionId = some o) =
    (db.part o).testRuns := by rfl
  assertions : db'.assertions.filter (fun a => db.ownerOfRequest a.apiRequestId = some o) =
    (db.part o).assertions := by rfl
  testTasks : db'.testTasks.filter (fun t => db.ownerOfRun t.testRunId = some o) = (db.part o).testTasks := by rfl
  requestResults : db'.requestResults = db.requestResults := by rfl
  executionLogs : db'.executionLogs = db.executionLogs := by rfl

theorem Outside.part_eq (h : Outside o db db') : db'.part o = db.part o := by
  -- one level after the other: the rows of a parent table tell whose the rows below it are
  have hproject : ∀ i, db'.ownerOfProject i = some o ↔ db.ownerOfProject i = some o := by
    intro i
    rw [ownerOfProject_iff, ownerOfProject_iff, ← h.projects]
    rfl
  have hcollection : ∀ i, db'.ownerOfCollection i = some o ↔ db.ownerOfCollection i = some o := by
    intro i
    rw [ownerOfCollection_iff, ownerOfCollection_iff, ← h.collections, Database.part]
    simp only [hproject]
  have hrequest : ∀ i, db'.ownerOfRequest i = some o ↔ db.ownerOfRequest i = some o := by
    intro i
    rw [ownerOfRequest_iff, ownerOfRequest_iff, ← h.apiRequests, Database.part]
    simp only [hcollection]
  have hrun : ∀ i, db'.ownerOfRun i = some o ↔ db.ownerOfRun i = some o := by
    intro i
    rw [ownerOfRun_iff, ownerOfRun_iff, ← h.testRuns, Database.part]
    simp only [hcollection]
  have htask : ∀ i, db'.owner .testTask i = some o ↔ db.owner .testTask i = some o := by
    intro i
    rw [ownerOfTask_iff, ownerOfTask_iff, ← h.testTasks, Database.part]
    simp only [hrun]
  obtain ⟨h₁, h₂, h₃, h₄, h₅, h₆, h₇, h₈, h₉, h₁₀, h₁₁, h₁₂⟩ := h
  simp only [Database.part] at h₁ h₂ h₃ h₄ h₅ h₆ h₇ h₈ h₉ h₁₀
  simp only [Database.part, hproject, hcollection, hrequest, hrun, htask, h₁, h₂, h₃, h₄, h₅, h₆, h₇, h₈, h₉, h₁₀,
    h₁₁, h₁₂]

/-- A row of one organization is not of another. -/
theorem not_owned {x : Option UUID} (hne : e ≠ o) (h : x = some e) : decide (x = some o) = false :=
  decide_eq_false fun ho => hne (Option.some.inj (h.symm.trans ho))

theorem filter_set_outside {ρ : Type} {key : ρ → UUID} {t : Table key} {parent : ρ → UUID}
    {owner : UUID → Option UUID} {r : ρ} (hne : e ≠ o) (hr : owner (parent r) = some e)
    (hold : ∀ q, t.get? (key r) = some q → parent q = parent r) :
    ((t.set r).filter fun q => owner (parent q) = some o) = t.filter fun q => owner (parent q) = some o :=
  Table.filter_set_of_false (not_owned hne hr) fun q hq => by rw [hold q hq]; exact not_owned hne hr

theorem filter_erase_outside {ρ : Type} {key : ρ → UUID} {t : Table key} {parent : ρ → UUID}
    {owner : UUID → Option UUID} {r : ρ} (hne : e ≠ o) (hmem : r ∈ t.rows) (hr : owner (parent r) = some e) :
    ((t.erase (key r)).filter fun q => owner (parent q) = some o) =
      t.filter fun q => owner (parent q) = some o := by
  refine Table.filter_filter_of_imp fun q hq hown => ?_
  simp only [decide_eq_true_eq] at hown ⊢
  intro hkey
  have hrow : t.get? (key r) = some r := Table.get?_eq_some_iff.2 ⟨hmem, rfl⟩
  rw [← hkey, Table.get?_eq_some_iff.2 ⟨hq, rfl⟩] at hrow
  cases hrow
  exact hne (Option.some.inj (hr.symm.trans hown))

section
variable {T : Subtree} {i : UUID}

theorem Subtree.Within.project_eq (h : T.Within db e) (ho : db.ownerOfProject i = some o) (hi : T .project i) :
    e = o := by
  rw [Database.ownerOfProject, Option.map_eq_some_iff] at ho
  obtain ⟨p, hp, rfl⟩ := ho
  obtain ⟨hrow, rfl⟩ := Table.get?_eq_some_iff.1 hp
  exact (h.projects p hrow hi).symm

theorem Subtree.Within.collection_eq (h : T.Within db e) (ho : db.ownerOfCollection i = some o)
    (hi : T .collection i) : e = o := by
  rw [Database.ownerOfCollection, Option.bind_eq_some_iff] at ho
  obtain ⟨c, hc, ho⟩ := ho
  obtain ⟨hrow, rfl⟩ := Table.get?_eq_some_iff.1 hc
  exact Option.some.inj ((h.collections c hrow hi).symm.trans ho)

theorem Subtree.Within.request_eq (h : T.Within db e) (ho : db.ownerOfRequest i = some o) (hi : T .request i) :
    e = o := by
  rw [Database.ownerOfRequest, Option.bind_eq_some_iff] at ho
  obtain ⟨r, hr, ho⟩ := ho
  obtain ⟨hrow, rfl⟩ := Table.get?_eq_some_iff.1 hr
  exact Option.some.inj ((h.requests r hrow hi).symm.trans ho)

theorem filter_prune {ρ κ : Type} {key : ρ → κ} {t : Table key} {own keep : ρ → Bool} (hne : e ≠ o)
    (h : ∀ r ∈ t.rows, own r → keep r → e = o) : (t.filter fun r => !keep r).filter own = t.filter own := by
  refine Table.filter_filter_of_imp fun r hr hown => ?_
  cases hkeep : keep r with
  | false => rfl
  | true => exact absurd (h r hr hown hkeep) hne

/-- The subtree of one organization has no row of another. -/
theorem Subtree.Within.outside (h : T.Within db e) (hne : e ≠ o) : Outside o db (db.prune T) where
  organizations := filter_prune hne fun r hr hown hkeep =>
    (h.organizations r hr hkeep).symm.trans (of_decide_eq_true hown)
  organizationMembers := filter_prune hne fun m hm hown hkeep =>
    (h.members m hm hkeep).symm.trans (of_decide_eq_true hown)
  projects := filter_prune hne fun p hp hown hkeep =>
    (h.projects p hp hkeep).symm.trans (of_decide_eq_true hown)
  collections := filter_prune hne fun c hc hown hkeep =>
    Option.some.inj ((h.collections c hc hkeep).symm.trans (of_decide_eq_true hown))
  environmentVariables := filter_prune hne fun v _ hown hkeep => h.project_eq (of_decide_eq_true hown) hkeep
  apiRequests := filter_prune hne fun r hr hown hkeep =>
    Option.some.inj ((h.requests r hr hkeep).symm.trans (of_decide_eq_true hown))
  schedules := filter_prune hne fun sc _ hown hkeep => h.collection_eq (of_decide_eq_true hown) hkeep
  assertions := filter_prune hne fun a _ hown hkeep => h.request_eq (of_decide_eq_true hown) hkeep

end

/-- A write to rows of one organization leaves those of another one alone. -/
theorem Edit.outside (he : Edit e db db') (hne : e ≠ o) : Outside o db db' := by
  cases he with
  | organization r hid =>
    have hr : decide (r.id = o) = false := decide_eq_false (hid ▸ hne)
    exact { organizations := Table.filter_set_of_false hr fun q hq => by
              rw [(Table.get?_eq_some_iff.1 hq).2]; exact hr }
  | member m ho horganization huser =>
    have hm : decide (m.organizationId = o) = false := decide_eq_false (ho ▸ hne)
    exact { organizationMembers := Table.filter_set_of_false hm fun q hq => by
              rw [show q.organizationId = m.organizationId from congrArg Prod.fst (Table.get?_eq_some_iff.1 hq).2]
              exact hm }
  | project p ho hold horganization huser =>
    have hp : decide (p.organizationId = o) = false := decide_eq_false (ho ▸ hne)
    exact { projects := Table.filter_set_of_false hp fun q hq => by rw [hold q hq]; exact hp }
  | collection c ho hold => exact { collections := filter_set_outside hne ho hold }
  | apiRequest r ho hold => exact { apiRequests := filter_set_outside hne ho hold }
  | assertion a ho hnew =>
    exact { assertions := filter_set_outside hne ho fun q hq => absurd (hnew.symm.trans hq) nofun }
  | environmentVariable v ho hold => exact { environmentVariables := filter_set_outside hne ho hold }
  | schedule sc ho hold huser => exact { schedules := filter_set_outside hne ho hold }
  | testRun r ho hnew huser =>
    exact { testRuns := filter_set_outside hne ho fun q hq => absurd (hnew.symm.trans hq) nofun }
  | testTask t run request ho hnew hrun hrequest hcollection =>
    have howner : db.ownerOfRun t.testRunId = some e := by rw [Database.ownerOfRun, hrun]; exact ho
    exact { testTasks := filter_set_outside hne howner fun q hq => absurd (hnew.symm.trans hq) nofun }
  | removeMember userId =>
    exact { organizationMembers := Table.filter_filter_of_imp fun m _ hm => by
              simp only [decide_eq_true_eq] at hm ⊢
              exact fun hkey => hne ((congrArg Prod.fst hkey).symm.trans hm) }
  | removeAssertion a ha ho => exact { assertions := filter_erase_outside hne ha ho }
  | removeVariable v hv ho => exact { environmentVariables := filter_erase_outside hne hv ho }
  | removeSchedule sc hsc ho => exact { schedules := filter_erase_outside hne hsc ho }
  | prune T hwithin hclosed hunused => exact hwithin.outside hne

end

end ApiTesting
