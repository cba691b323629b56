import ApiTesting.Proofs.Authorized
import ApiTesting.Proofs.Commits
import ApiTesting.Spec.CronScheduler
import ApiTesting.Spec.Endpoints

/-! The database over the life of the platform. Whatever requests, sweeps and batches it has
seen, no row refers to one that is gone; and whatever the users outside an organization
request, its rows stay as they are. -/

namespace ApiTesting

open Keyed ServiceM Fallible

/-- The endpoints, but for those of users and workers. -/
inductive ApiCall
  | createOrganization (name slug : String)
  | listMyOrganizations
  | on {k : Kind} (op : Operation k) (id : UUID)

def ApiCall.respond (lib : Libraries) (currentUser : User) : ApiCall → ServiceM Unit
  | .createOrganization name slug => do
    let _ ← OrganizationService.createOrganization currentUser name slug
  | .listMyOrganizations => do let _ ← OrganizationService.listMyOrganizations currentUser
  | .on op id => op.apply lib currentUser id

/-- What is committed in one piece. -/
inductive PlatformTransaction
  | request (r : Incoming ApiCall)
  | cronSweep (batchSize : ℕ) (x : Surroundings)
  | writeBatch (outcomes : List TaskOutcome) (now : Timestamp) (call : Call)

def PlatformTransaction.perform (lib : Libraries) (w : World) : PlatformTransaction → World
  | .request r => (answer (ApiCall.respond lib) w r).2
  | .cronSweep batchSize x => ((cronSweepOnce lib batchSize).transact x w).2
  | .writeBatch outcomes now call => { w with db := (runWrite outcomes now call w.db).2 }

/-- The platform with its users before anything has been done. -/
def blank (users : Table User.id) : World := ⟨{ Database.empty with users }, .empty, 0⟩

section
variable {db db' : Database} {o userId : UUID}

theorem Edits.linked (h : Edits o db db') (hlinked : db.Linked) : db'.Linked := by
  induction h with
  | refl => exact hlinked
  | tail _ he ih => exact he.linked ih

theorem Edits.part {e : UUID} (h : Edits e db db') (hne : e ≠ o) : db'.part o = db.part o := by
  induction h with
  | refl => rfl
  | tail _ he ih => exact (he.outside hne).part_eq.trans ih

theorem Authorized.linked (h : Authorized userId db db') (hlinked : db.Linked) : db'.Linked := by
  cases h with
  | nothing => exact hlinked
  | edits _ h => exact h.linked hlinked

/-- Who is not a member writes to rows of some other organization. -/
theorem Authorized.part (h : Authorized userId db db') (ho : (db.organizations.get? o).isSome)
    (hout : db.isMember o userId = false) : db'.part o = db.part o := by
  cases h with
  | nothing => rfl
  | @edits e _ hmember h =>
    refine h.part ?_
    rintro rfl
    rcases hmember with hmember | hnew
    · rw [hmember] at hout
      cases hout
    · rw [hnew] at ho
      cases ho

end

section
variable {s : Session} {user : User} {lib : Libraries}

/-- Only reading and returning. -/
theorem byMember_read {α : Type} {m : ServiceM α} (hm : ReadOnly m) :
    ByMember user (do let _ ← m; return ()) s := byMember_of_readOnly (hm.bind fun _ => keeps_pure _)

theorem byMember_write {α : Type} {m : ServiceM α} (hm : ByMember user m s) :
    ByMember user (do let _ ← m; return ()) s := leaves_bind_readOnly hm fun _ => keeps_pure _

/-- The membership is checked, and then something is read. -/
theorem readOnly_checked {α : Type} {o u : UUID} {roles : Option (List OrganizationRole)} {e : AppError}
    {k : ServiceM α} (hk : ReadOnly k) : ReadOnly (do let _ ← requireMembership o u roles e; k) :=
  (readOnly_requireMembership _ _ _ _).bind fun _ => hk

theorem readOnly_getTaskDetail (runId taskId : UUID) :
    ReadOnly (TestRunService.getTaskDetail user runId taskId) := by
  refine (readOnly_getAuthorizedRun _ _).bind fun _ => (readOnly_query _).bind fun _ =>
    (readOnly_existing _ _).bind fun t => ?_
  have hread : ReadOnly (do
      let attempts ← RequestResultRepository.listByTaskId taskId
      let logs ← ExecutionLogRepository.listByTask taskId
      return (t, attempts, logs)) :=
    (readOnly_query _).bind fun _ => (readOnly_query _).bind fun _ => keeps_pure _
  dsimp only
  split
  · exact Keeps.bind (keeps_throw _) fun _ => hread
  · exact hread

/-- Every operation on a resource. -/
theorem apply_leaves (hlinked : s.db.Linked) {k : Kind} (op : Operation k) (id : UUID) :
    ByMember user (op.apply lib user id) s := by
  cases op with
  | getOrganization =>
    exact byMember_read ((readOnly_requireMembership _ _ _ _).bind fun _ => (readOnly_query _).bind fun _ =>
      (readOnly_existing _ _).bind fun _ => keeps_pure _)
  | updateOrganization name slug => exact byMember_write (updateOrganization_leaves name slug)
  | deleteOrganization => exact deleteOrganization_leaves
  | listMembers => exact byMember_read (readOnly_checked (readOnly_query _))
  | addMember email role => exact byMember_write (addMember_leaves email role)
  | updateMemberRole target role => exact byMember_write (updateMemberRole_leaves hlinked target role)
  | removeMember target => exact removeMember_leaves target
  | createProject name description => exact byMember_write (createProject_leaves name description)
  | listProjects => exact byMember_read (readOnly_checked (readOnly_query _))
  | getProject => exact byMember_read (readOnly_getAuthorizedProject _ _ _)
  | updateProject updateData => exact byMember_write (updateProject_leaves hlinked updateData)
  | deleteProject => exact deleteProject_leaves
  | createCollection name description => exact byMember_write (createCollection_leaves name description)
  | listCollections =>
    exact byMember_read ((readOnly_getAuthorizedProject _ _ _).bind fun _ => readOnly_query _)
  | createVariable key value isSecret => exact byMember_write (createVariable_leaves key value isSecret)
  | listVariables =>
    exact byMember_read ((readOnly_organizationIdForProject _).bind fun _ =>
      readOnly_checked (readOnly_query _))
  | getCollection => exact byMember_read (readOnly_getAuthorizedCollection _ _ _)
  | updateCollection updateData => exact byMember_write (updateCollection_leaves updateData)
  | deleteCollection => exact deleteCollection_leaves
  | createRequest fields => exact byMember_write (createRequest_leaves fields)
  | listRequests =>
    exact byMember_read ((readOnly_organizationIdForCollection _ _).bind fun _ =>
      readOnly_checked (readOnly_query _))
  | createSchedule expression timezone isActive =>
    exact byMember_write (createSchedule_leaves expression timezone isActive)
  | listSchedules =>
    exact byMember_read ((readOnly_organizationIdForCollection _ _).bind fun _ =>
      readOnly_checked (readOnly_query _))
  | createRun dataRows => exact byMember_write (createRun_leaves hlinked dataRows)
  | listRuns status =>
    exact byMember_read ((readOnly_organizationIdForCollection _ _).bind fun _ =>
      readOnly_checked (readOnly_query _))
  | getRequest => exact byMember_read (readOnly_getAuthorizedRequest _ _ _)
  | updateRequest fields => exact byMember_write (updateRequest_leaves fields)
  | deleteRequest => exact deleteRequest_leaves
  | createAssertion type config => exact byMember_write (createAssertion_leaves type config)
  | listAssertions =>
    exact byMember_read ((readOnly_organizationIdForRequest _).bind fun _ => readOnly_checked (readOnly_query _))
  | deleteAssertion => exact deleteAssertion_leaves
  | getVariable => exact byMember_read ((readOnly_getAuthorizedVariable _ _).bind fun _ => keeps_pure _)
  | updateVariable fields => exact byMember_write (updateVariable_leaves fields)
  | deleteVariable => exact deleteVariable_leaves
  | getSchedule => exact byMember_read (readOnly_getAuthorizedSchedule _ _ _)
  | updateSchedule fields => exact byMember_write (updateSchedule_leaves hlinked fields)
  | deleteSchedule => exact deleteSchedule_leaves
  | getRun => exact byMember_read (readOnly_getAuthorizedRun _ _)
  | listTasks status limit offset =>
    exact byMember_read ((readOnly_getAuthorizedRun _ _).bind fun _ => (readOnly_query _).bind fun _ =>
      (readOnly_query _).bind fun _ => keeps_pure _)
  | getTaskDetailIn taskId => exact byMember_read (readOnly_getTaskDetail _ _)
  | exportResults =>
    exact byMember_read ((readOnly_getAuthorizedRun _ _).bind fun _ => (readOnly_query _).bind fun _ =>
      keeps_pure _)
  | getTaskDetail runId => exact byMember_read (readOnly_getTaskDetail _ _)

theorem respond_leaves (hlinked : s.db.Linked) (call : ApiCall) : ByMember user (call.respond lib user) s := by
  cases call with
  | createOrganization name slug => exact byMember_write (createOrganization_leaves name slug)
  | listMyOrganizations => exact byMember_read (readOnly_query _)
  | on op id => exact apply_leaves hlinked op id

end

/-- A request is committed as a whole, or not at all. -/
theorem answer_authorized (lib : Libraries) {w : World} (hlinked : w.db.Linked) (r : Incoming ApiCall) :
    Authorized r.user.id w.db (answer (ApiCall.respond lib) w r).2.db := by
  obtain ⟨hdb, hcommitted⟩ := (respond_leaves hlinked r.request :
    ByMember r.user (r.request.respond lib r.user) (w.session r.surroundings))
  rcases committed_getDb hcommitted with hsame | hwritten
  · rw [show (answer (ApiCall.respond lib) w r).2.db = w.db from hsame]
    exact .nothing
  · rw [show (answer (ApiCall.respond lib) w r).2.db = _ from hwritten]
    exact hdb

/-! The batches of the workers. -/

section
variable {db db' : Database} {now : Timestamp} {outcomes : List TaskOutcome}

theorem Database.Linked.modifyTask (h : db.Linked) (k : UUID) (f : TestTask → TestTask)
    (hid : ∀ t, (f t).id = t.id) (hrun : ∀ t, (f t).testRunId = t.testRunId)
    (hrequest : ∀ t, (f t).apiRequestId = t.apiRequestId) :
    ({ db with testTasks := db.testTasks.modify k f hid } : Database).Linked :=
  { h with
    testTasks := h.testTasks.modify hid hrun
    taskRequests := h.taskRequests.modify hid hrequest
    requestResults := h.requestResults.modify_referenced hid
    ofCollection := by
      intro q hq run request hr hrq
      obtain ⟨t, ht, rfl⟩ := List.mem_map.1 hq
      refine h.ofCollection t ht run request ?_ ?_
      · rw [← hr]
        split
        · rw [hrun]
        · rfl
      · rw [← hrq]
        split
        · rw [hrequest]
        · rfl }

theorem Database.Linked.modifyRun (h : db.Linked) (k : UUID) (f : TestRun → TestRun) (hid : ∀ r, (f r).id = r.id)
    (hcollection : ∀ r, (f r).collectionId = r.collectionId) (huser : ∀ r, (f r).initiatedBy = r.initiatedBy) :
    ({ db with testRuns := db.testRuns.modify k f hid } : Database).Linked :=
  { h with
    testRuns := h.testRuns.modify hid hcollection
    runInitiators := h.runInitiators.modify hid huser
    testTasks := h.testTasks.modify_referenced hid
    ofCollection := by
      intro t ht run request hrun hrequest
      rw [Table.get?_modify] at hrun
      split at hrun
      · rename_i hk
        obtain ⟨r, hr, rfl⟩ := Option.map_eq_some_iff.1 hrun
        rw [hcollection]
        exact h.ofCollection t ht r request (hk ▸ hr) hrequest
      · exact h.ofCollection t ht run request hrun hrequest }

theorem Database.Linked.foldl_applyOutcome (h : db.Linked) (outcomes : List TaskOutcome) :
    (outcomes.foldl applyOutcome db).Linked := by
  induction outcomes generalizing db with
  | nil => exact h
  | cons o outcomes ih =>
    rw [List.foldl_cons]
    exact ih (h.modifyTask o.testTaskId (·.record o) (fun _ => rfl) (fun _ => rfl) fun _ => rfl)

theorem Database.Linked.advanceRuns (h : db.Linked) (deltas : List (UUID × Delta))
    (hrun : deltas.foldlM (advanceRun now) db = .ok db') : db'.Linked := by
  induction deltas generalizing db with
  | nil =>
    cases hrun
    exact h
  | cons p deltas ih =>
    rw [List.foldlM_cons] at hrun
    unfold advanceRun at hrun
    split at hrun
    · cases hrun
    · refine ih (h.modifyRun p.1 (fun r => (r.advance p.2).finish now) (fun r => r.finish_advance_id p.2 now)
        (fun r => ?_) fun r => ?_) hrun
      · unfold TestRun.finish
        split <;> rfl
      · unfold TestRun.finish
        split <;> rfl

theorem Database.Linked.writeBatch (h : db.Linked) (hwrite : writeBatch outcomes now db = .ok db') :
    db'.Linked := by
  rcases parts_of_writeBatch hwrite with ⟨-, rfl⟩ | ⟨updated, hupdate, hparents, rfl⟩
  · exact h
  · have hlinked := (h.foldl_applyOutcome outcomes).advanceRuns _ hupdate
    refine { hlinked with requestResults := hlinked.requestResults.append fun r hr => ?_ }
    obtain ⟨o, ho, rfl⟩ := List.mem_map.1 hr
    have hparent := hparents o ho
    rw [hasParents, Bool.and_eq_true] at hparent
    exact hparent.1

theorem Database.Linked.runWrite (h : db.Linked) (call : Call) : (runWrite outcomes now call db).2.Linked := by
  rcases hwrite : ApiTesting.writeBatch outcomes now db with e | written
  · cases call <;> simpa [ApiTesting.runWrite, hwrite] using h
  · have hlinked := h.writeBatch hwrite
    cases call
    · simpa [ApiTesting.runWrite, hwrite] using hlinked
    · simpa [ApiTesting.runWrite] using h
    · simpa [ApiTesting.runWrite, hwrite] using hlinked

end

/-! The sweeps of the scheduler. -/

section
variable {s : Session} {lib : Libraries}

theorem leaves_tryCatch {α : Type} {P : Database → Prop} {m : ServiceM α} {handler : Exn → ServiceM α}
    (hm : Leaves P m s) (hh : ∀ e, ReadOnly (handler e)) : Leaves P (tryCatch m handler) s := by
  refine leaves_of_state ?_ hm.db hm.committed
  rcases h : m s with ⟨r, s'⟩
  cases r with
  | ok a => rw [tryCatch_of_ok _ h]
  | error e =>
    rw [tryCatch_of_error _ h]
    exact hh e s'

/-- What a sweep leaves: the parents of the schedules it goes through are there. -/
structure Sweepable (due : List Schedule) (db : Database) : Prop where
  linked : db.Linked
  collections : Refers due Schedule.collectionId db.collections
  creators : Refers due Schedule.createdBy db.users

theorem triggerSchedule_leaves {due : List Schedule} {sc : Schedule} (hs : Sweepable due s.db) (hsc : sc ∈ due) :
    Leaves (Sweepable due) (triggerSchedule lib sc) s := by
  unfold triggerSchedule
  refine leaves_andThen (leaves_tryCatch ?_ fun _ => keeps_pure _) fun triggered s' _ hs' => ?_
  · refine leaves_bind_readOnly (createRunFor_leaves hs (fun o _ db hdb => ?_) hs.linked) fun _ => keeps_pure _
    refine ⟨hdb.edits.linked hs.linked, ?_, ?_⟩
    · rw [hdb.rest]
      exact hs.collections
    · rw [hdb.rest]
      exact hs.creators
  · refine leaves_bind (readOnly_computeNextRunAt _ _ _) hs' fun next _ => ?_
    refine leaves_bind readOnly_now hs' fun at_ _ => ?_
    refine leaves_bind_readOnly (leaves_bind_readOnly (leaves_flush hs' fun db h => ?_) fun _ => keeps_pure _)
      fun _ => keeps_pure _
    obtain ⟨schedules, hu, rfl⟩ := ok_of_written h
    rw [updateRow_ok hu]
    exact
      { hs' with
        linked :=
          { hs'.linked with
            schedules := hs'.linked.schedules.set (hs'.collections sc hsc)
            scheduleCreators := hs'.linked.scheduleCreators.set (hs'.creators sc hsc) } }

theorem triggerAll_leaves {due : List Schedule} (rest : List Schedule) (hs : Sweepable due s.db)
    (hrest : ∀ sc ∈ rest, sc ∈ due) (count : ℕ) : Leaves (Sweepable due) (triggerAll lib rest count) s := by
  induction rest generalizing s count with
  | nil => exact leaves_of_readOnly (keeps_pure _) hs
  | cons sc rest ih =>
    rw [List.forall_mem_cons] at hrest
    refine leaves_andThen (triggerSchedule_leaves hs hrest.1) fun triggered s' _ hs' => ?_
    exact ih hs' hrest.2 _

theorem Database.Linked.sweepable {db : Database} (h : db.Linked) (ties : Ties) (now : Timestamp) (limit : ℕ) :
    Sweepable (db.dueSchedules ties now limit) db := by
  have hdue : db.dueSchedules ties now limit ⊆ db.schedules.rows :=
    fun _ hsc => (mem_dueSchedules hsc).1
  exact ⟨h, h.schedules.subset hdue, h.scheduleCreators.subset hdue⟩

theorem Database.Linked.cronSweepOnce {w : World} (h : w.db.Linked) (batchSize : ℕ) (x : Surroundings) :
    ((cronSweepOnce lib batchSize).transact x w).2.db.Linked := by
  change (ApiTesting.cronSweepOnce lib batchSize (w.session x)).2.committed.Linked
  have hstart : (w.session x).committed.Linked := h
  unfold ApiTesting.cronSweepOnce
  refine bind_of_readOnly (P := fun s' => s'.committed.Linked) readOnly_now hstart fun at_ _ => ?_
  refine bind_of_readOnly (P := fun s' => s'.committed.Linked) (readOnly_listDue _ _) hstart fun due hdue => ?_
  obtain rfl := query_ok hdue
  split
  · exact hstart
  have hsweepable : Sweepable ((w.session x).db.dueSchedules (w.session x).ties at_ batchSize) (w.session x).db :=
    h.sweepable (w.session x).ties at_ batchSize
  obtain ⟨hdb, hcommitted⟩ := triggerAll_leaves _ hsweepable (fun _ hsc => hsc) 0
  rcases hall : triggerAll lib ((w.session x).db.dueSchedules (w.session x).ties at_ batchSize) 0 (w.session x) with ⟨r, s'⟩
  rw [hall] at hdb hcommitted
  cases r with
  | error e =>
    rw [bind_of_error _ hall]
    exact hcommitted ▸ hstart
  | ok count =>
    rw [bind_of_ok _ hall]
    rcases hcommit : commit s' with ⟨r, s''⟩
    rw [bind_return hcommit]
    have hcases := committed_commit s'
    rw [hcommit] at hcases
    rcases hcases with hsame | hwritten
    · rw [hsame]
      exact hcommitted ▸ hstart
    · rw [hwritten]
      exact hdb.linked

end

/-- Every transaction leaves the references whole. -/
theorem linked_perform (lib : Libraries) {w : World} (h : w.db.Linked) (t : PlatformTransaction) :
    (t.perform lib w).db.Linked := by
  cases t with
  | request r => exact (answer_authorized lib h r).linked h
  | cronSweep batchSize x => exact h.cronSweepOnce batchSize x
  | writeBatch outcomes now call => exact h.runWrite call

/-- The state a history of transactions leads to from the platform with its users. -/
def after (lib : Libraries) (users : Table User.id) (history : List PlatformTransaction) : World :=
  history.foldl (PlatformTransaction.perform lib) (blank users)

theorem linked_after (lib : Libraries) (users : Table User.id) (history : List PlatformTransaction) :
    (after lib users history).db.Linked := by
  have hblank : (blank users).db.Linked := by
    constructor <;> intro r hr <;> cases hr
  unfold after
  generalize blank users = w at hblank
  induction history generalizing w with
  | nil => exact hblank
  | cons t history ih => exact ih _ (linked_perform lib hblank t)

/-! The ancestors of a row, one table after the other. -/

section
variable {db : Database} {i : UUID}

/-- An organization that is there. -/
def Database.Owned (db : Database) (x : Option UUID) : Prop :=
  ∃ o, x = some o ∧ (db.organizations.get? o).isSome

theorem Database.Linked.owned_project (h : db.Linked) (hi : (db.projects.get? i).isSome) :
    db.Owned (db.ownerOfProject i) := by
  obtain ⟨p, hp⟩ := Option.isSome_iff_exists.1 hi
  exact ⟨p.organizationId, by rw [Database.ownerOfProject, hp]; rfl, h.projects p (Table.get?_eq_some_iff.1 hp).1⟩

theorem Database.Linked.owned_collection (h : db.Linked) (hi : (db.collections.get? i).isSome) :
    db.Owned (db.ownerOfCollection i) := by
  obtain ⟨c, hc⟩ := Option.isSome_iff_exists.1 hi
  rw [Database.ownerOfCollection, hc]
  exact h.owned_project (h.collections c (Table.get?_eq_some_iff.1 hc).1)

theorem Database.Linked.owned_request (h : db.Linked) (hi : (db.apiRequests.get? i).isSome) :
    db.Owned (db.ownerOfRequest i) := by
  obtain ⟨r, hr⟩ := Option.isSome_iff_exists.1 hi
  rw [Database.ownerOfRequest, hr]
  exact h.owned_collection (h.apiRequests r (Table.get?_eq_some_iff.1 hr).1)

theorem Database.Linked.owned_run (h : db.Linked) (hi : (db.testRuns.get? i).isSome) :
    db.Owned (db.ownerOfRun i) := by
  obtain ⟨r, hr⟩ := Option.isSome_iff_exists.1 hi
  rw [Database.ownerOfRun, hr]
  exact h.owned_collection (h.testRuns r (Table.get?_eq_some_iff.1 hr).1)

theorem Database.Linked.owned (h : db.Linked) {k : Kind} (hi : db.exists? k i) : db.Owned (db.owner k i) := by
  cases k with
  | organization =>
    obtain ⟨org, horg⟩ := Option.isSome_iff_exists.1 hi
    have hid := (Table.get?_eq_some_iff.1 horg).2
    exact ⟨org.id, by rw [Database.owner, horg]; rfl, by rw [hid, horg]; rfl⟩
  | project => exact h.owned_project hi
  | collection => exact h.owned_collection hi
  | apiRequest => exact h.owned_request hi
  | assertion =>
    obtain ⟨a, ha⟩ := Option.isSome_iff_exists.1 hi
    rw [Database.owner, ha]
    exact h.owned_request (h.assertions a (Table.get?_eq_some_iff.1 ha).1)
  | environmentVariable =>
    obtain ⟨v, hv⟩ := Option.isSome_iff_exists.1 hi
    rw [Database.owner, hv]
    exact h.owned_project (h.environmentVariables v (Table.get?_eq_some_iff.1 hv).1)
  | schedule =>
    obtain ⟨sc, hsc⟩ := Option.isSome_iff_exists.1 hi
    rw [Database.owner, hsc]
    exact h.owned_collection (h.schedules sc (Table.get?_eq_some_iff.1 hsc).1)
  | testRun => exact h.owned_run hi
  | testTask =>
    obtain ⟨t, ht⟩ := Option.isSome_iff_exists.1 hi
    rw [Database.owner, ht]
    exact h.owned_run (h.testTasks t (Table.get?_eq_some_iff.1 ht).1)

end

/-- Over the life of the platform every row has its ancestors, up to an organization that is
there, a membership its organization and its user, a result has its task, and a task sends a
request of the collection its run is of. -/
theorem references_whole (lib : Libraries) (users : Table User.id) (history : List PlatformTransaction) :
    (∀ k id, (after lib users history).db.exists? k id →
      (after lib users history).db.Owned ((after lib users history).db.owner k id)) ∧
    (∀ m ∈ (after lib users history).db.organizationMembers.rows,
      ((after lib users history).db.organizations.get? m.organizationId).isSome ∧
        ((after lib users history).db.users.get? m.userId).isSome) ∧
    (∀ t ∈ (after lib users history).db.testTasks.rows, ∃ run request,
      (after lib users history).db.testRuns.get? t.testRunId = some run ∧
        (after lib users history).db.apiRequests.get? t.apiRequestId = some request ∧
        request.collectionId = run.collectionId) ∧
    ∀ r ∈ (after lib users history).db.requestResults,
      ((after lib users history).db.testTasks.get? r.testTaskId).isSome := by
  have hlinked := linked_after lib users history
  refine ⟨fun k id hid => hlinked.owned hid,
    fun m hm => ⟨hlinked.members m hm, hlinked.memberUsers m hm⟩, fun t ht => ?_, hlinked.requestResults⟩
  obtain ⟨run, hrun⟩ := Option.isSome_iff_exists.1 (hlinked.testTasks t ht)
  obtain ⟨request, hrequest⟩ := Option.isSome_iff_exists.1 (hlinked.taskRequests t ht)
  exact ⟨run, request, hrun, hrequest, hlinked.ofCollection t ht run request hrun hrequest⟩

/-! Users outside an organization. -/

theorem isMember_part {db : Database} {o u : UUID} : (db.part o).isMember o u = db.isMember o u := by
  rw [Database.isMember, Database.isMember, Database.part, Bool.eq_iff_iff, isSome_get?_filter]
  constructor
  · rintro ⟨m, hm, -⟩
    rw [hm]
    rfl
  · intro h
    obtain ⟨m, hm⟩ := Option.isSome_iff_exists.1 h
    have hkey := congrArg Prod.fst (Table.get?_eq_some_iff.1 hm).2
    exact ⟨m, hm, decide_eq_true hkey⟩

theorem organization_part {db : Database} {o : UUID} :
    ((db.part o).organizations.get? o).isSome ↔ (db.organizations.get? o).isSome := by
  rw [Database.part, isSome_get?_filter, Option.isSome_iff_exists]
  constructor
  · rintro ⟨r, hr, -⟩
    exact ⟨r, hr⟩
  · rintro ⟨r, hr⟩
    exact ⟨r, hr, decide_eq_true (Table.get?_eq_some_iff.1 hr).2⟩

theorem part_answerAll (lib : Libraries) (o : UUID) (requests : List (Incoming ApiCall)) {w : World}
    (hlinked : w.db.Linked) (ho : (w.db.organizations.get? o).isSome)
    (hout : ∀ r ∈ requests, w.db.isMember o r.user.id = false) :
    (answerAll (ApiCall.respond lib) w requests).2.db.part o = w.db.part o := by
  induction requests generalizing w with
  | nil => rfl
  | cons r requests ih =>
    rw [List.forall_mem_cons] at hout
    have hauthorized := answer_authorized lib hlinked r
    have hpart := hauthorized.part ho hout.1
    -- the members of the organization are the same, so the others are still outside
    refine (ih (hauthorized.linked hlinked) ?_ fun q hq => ?_).trans hpart
    · rw [← organization_part, hpart, organization_part]
      exact ho
    · rw [← isMember_part, hpart, isMember_part]
      exact hout.2 q hq

/-- Whatever the platform has seen, the requests of users who are not members of an organization
leave every row of it as it is: its projects and what is in them, its members, its runs and
their results. -/
theorem outsiders_write_nothing (lib : Libraries) (users : Table User.id) (history : List PlatformTransaction)
    (o : UUID) (requests : List (Incoming ApiCall))
    (ho : ((after lib users history).db.organizations.get? o).isSome)
    (hout : ∀ r ∈ requests, (after lib users history).db.isMember o r.user.id = false) :
    (answerAll (ApiCall.respond lib) (after lib users history) requests).2.db.part o =
      (after lib users history).db.part o :=
  part_answerAll lib o requests (linked_after lib users history) ho hout

/-- An owner with an organization and a project in it. -/
def acmeUsers : Table User.id := (Table.empty.set acmeOwner).set ⟨7, "eve@example.com"⟩

def acmeHistory : List PlatformTransaction :=
  [.request ⟨acmeOwner, .createOrganization "Acme" "acme", calm⟩,
    .request ⟨acmeOwner, .on (k := .organization) (.createProject "Billing" none) 0, calm⟩]

/-- Somebody else makes an organization of their own and reaches for the other one. -/
def eveRequests : List (Incoming ApiCall) :=
  [⟨⟨7, "eve@example.com"⟩, .createOrganization "Eve" "eve", calm⟩,
    ⟨⟨7, "eve@example.com"⟩, .on (.addMember "eve@example.com" .owner) 0, calm⟩,
    ⟨⟨7, "eve@example.com"⟩, .on .deleteProject 1, calm⟩]

theorem outsiders_write_nothing_eve :
    (answerAll (ApiCall.respond plainLibraries) (after plainLibraries acmeUsers acmeHistory)
        eveRequests).2.db.part 0 =
      (after plainLibraries acmeUsers acmeHistory).db.part 0 :=
  outsiders_write_nothing plainLibraries acmeUsers acmeHistory 0 eveRequests (by decide) (by decide)

end ApiTesting
