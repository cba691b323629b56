import ApiTesting.Proofs.AllOrNothing
import ApiTesting.Proofs.ScheduleLaw
import ApiTesting.Proofs.Tenancy

/-! What a transaction may do to the runs, their tasks and the schedules, whatever it is: the
ids it puts into use are below the next one, and a schedule it writes has its next run
computed then. -/

namespace ApiTesting

open Keyed ServiceM Fallible

/-- The next run of a schedule, as a create, a PATCH or a sweep leaves it at a time. -/
def Schedule.Computed (lib : Libraries) (now : Timestamp) (sc : Schedule) : Prop :=
  sc.nextRunAt = none ∨
    ∃ next, lib.cronNext sc.cronExpression sc.timezone now = .ok next ∧ sc.nextRunAt = some next

structure Onward (lib : Libraries) (s s' : Session) : Prop where
  runs : ∀ k ∈ s'.db.testRuns.keys, k ∈ s.db.testRuns.keys ∨ k < s'.nextId
  tasks : ∀ k ∈ s'.db.testTasks.keys, k ∈ s.db.testTasks.keys ∨ k < s'.nextId
  log : ∀ i ∈ s'.stream.log, i ∈ s.stream.log ∨ i < s'.nextId
  schedules : ∀ sc ∈ s'.db.schedules.rows, sc ∈ s.db.schedules.rows ∨ sc.Computed lib s.now
  nextId : s.nextId ≤ s'.nextId
  now : s'.now = s.now

/-- No run, task or schedule that was not there. -/
structure Database.Shrinks (db db' : Database) : Prop where
  runs : ∀ k ∈ db'.testRuns.keys, k ∈ db.testRuns.keys
  tasks : ∀ k ∈ db'.testTasks.keys, k ∈ db.testTasks.keys
  schedules : ∀ sc ∈ db'.schedules.rows, sc ∈ db.schedules.rows

section
variable {lib : Libraries} {s s' s'' : Session} {db db' db'' : Database}

theorem Onward.refl (s : Session) : Onward lib s s :=
  ⟨fun _ h => .inl h, fun _ h => .inl h, fun _ h => .inl h, fun _ h => .inl h, le_rfl, rfl⟩

theorem Onward.trans (h : Onward lib s s') (h' : Onward lib s' s'') : Onward lib s s'' where
  runs := fun k hk => (h'.runs k hk).elim (fun hk => (h.runs k hk).imp_right (lt_of_lt_of_le · h'.nextId)) .inr
  tasks := fun k hk => (h'.tasks k hk).elim (fun hk => (h.tasks k hk).imp_right (lt_of_lt_of_le · h'.nextId)) .inr
  log := fun i hi => (h'.log i hi).elim (fun hi => (h.log i hi).imp_right (lt_of_lt_of_le · h'.nextId)) .inr
  schedules := by
    intro sc hsc
    rcases h'.schedules sc hsc with hsc | hcomputed
    · exact h.schedules sc hsc
    · exact .inr (h.now ▸ hcomputed)
  nextId := h.nextId.trans h'.nextId
  now := h'.now.trans h.now

instance : Std.Refl (Onward lib) := ⟨Onward.refl⟩

instance : IsTrans Session (Onward lib) := ⟨fun _ _ _ h h' => h.trans h'⟩

theorem Database.Shrinks.refl (db : Database) : db.Shrinks db := ⟨fun _ h => h, fun _ h => h, fun _ h => h⟩

theorem Database.Shrinks.trans (h : db.Shrinks db') (h' : db'.Shrinks db'') : db.Shrinks db'' :=
  ⟨fun k hk => h.runs k (h'.runs k hk), fun k hk => h.tasks k (h'.tasks k hk),
    fun sc hsc => h.schedules sc (h'.schedules sc hsc)⟩

/-- A write to none of the three tables. -/
theorem Database.Shrinks.of_eq (hruns : db'.testRuns = db.testRuns) (htasks : db'.testTasks = db.testTasks)
    (hschedules : db'.schedules = db.schedules) : db.Shrinks db' :=
  ⟨fun _ h => hruns ▸ h, fun _ h => htasks ▸ h, fun _ h => hschedules ▸ h⟩

theorem Database.Shrinks.onward (h : s.db.Shrinks s'.db) (hlog : s'.stream.log = s.stream.log)
    (hid : s.nextId ≤ s'.nextId) (hnow : s'.now = s.now) : Onward lib s s' where
  runs := fun k hk => .inl (h.runs k hk)
  tasks := fun k hk => .inl (h.tasks k hk)
  log := fun _ hi => .inl (hlog ▸ hi)
  schedules := fun sc hsc => .inl (h.schedules sc hsc)
  nextId := hid
  now := hnow

theorem Onward.of_db (hdb : s'.db = s.db) (hlog : s'.stream.log = s.stream.log) (hid : s.nextId ≤ s'.nextId)
    (hnow : s'.now = s.now) : Onward lib s s' :=
  (hdb ▸ Database.Shrinks.refl s.db : s.db.Shrinks s'.db).onward hlog hid hnow

theorem shrinks_foldlM {α : Type} {f : Database → α → Except Exn Database}
    (hf : ∀ (db : Database) (a : α) (db' : Database), f db a = .ok db' → db.Shrinks db') (l : List α)
    (h : l.foldlM f db = .ok db') : db.Shrinks db' := by
  induction l generalizing db with
  | nil =>
    cases h
    exact .refl _
  | cons a l ih =>
    rw [List.foldlM_cons] at h
    obtain ⟨db₁, h₁, h⟩ := bind_eq_ok_iff.1 h
    exact (hf db a db₁ h₁).trans (ih h)

/-! The writes. -/

theorem onward_of_flush {f : Database → Except Exn Database}
    (hf : ∀ db', f s.db = .ok db' → Onward lib s { s with db := db' }) : RelatesFrom (Onward lib) (flush f) s := by
  unfold RelatesFrom
  rcases hflush : flush f s with ⟨r, s'⟩
  unfold flush at hflush
  split at hflush
  · cases hflush
    exact .refl s
  · split at hflush
    · rename_i db' hdb
      cases hflush
      exact hf db' hdb
    · cases hflush
      exact .of_db rfl rfl le_rfl rfl

theorem onward_flush {f : Database → Except Exn Database} (hf : ∀ db', f s.db = .ok db' → s.db.Shrinks db') :
    RelatesFrom (Onward lib) (flush f) s := by
  exact onward_of_flush fun db' hdb => (hf db' hdb).onward rfl le_rfl rfl

theorem onward_generateIds (count : ℕ) : Relates (Onward lib) (generateIds count) := fun _ =>
  .of_db rfl rfl (Nat.le_add_right _ _) rfl

theorem onward_onIntegrityError {α : Type} {m : ServiceM α} (hm : Relates (Onward lib) m) (e : AppError) :
    Relates (Onward lib) (onIntegrityError e m) := by
  refine hm.tryCatch fun exc => ?_
  split
  · exact (keeps_throw _ : ReadOnly _).relates
  · exact (keeps_throw _ : ReadOnly _).relates

/-- A flush of other tables, with what a constraint demands. -/
theorem onward_write {γ : Type} {b : Database → Bool} {x : Database → Except Exn γ} {put : Database → γ → Database}
    (hput : ∀ (db : Database) (t : γ), db.Shrinks (put db t)) :
    Relates (Onward lib) (flush fun db => do require (b db); let t ← x db; return put db t) := by
  intro s
  refine onward_flush fun db' h => ?_
  obtain ⟨-, t, -, rfl⟩ := ok_of_required h
  exact hput _ t

theorem onward_replace {γ : Type} {x : Database → Except Exn γ} {put : Database → γ → Database}
    (hput : ∀ (db : Database) (t : γ), db.Shrinks (put db t)) :
    Relates (Onward lib) (flush fun db => do let t ← x db; return put db t) := by
  intro s
  refine onward_flush fun db' h => ?_
  obtain ⟨t, -, rfl⟩ := ok_of_written h
  exact hput _ t

/-! The deletions. -/

theorem shrinks_deleteAssertionRow (a : Assertion) (h : deleteAssertionRow db a = .ok db') : db.Shrinks db' := by
  obtain ⟨t, -, rfl⟩ := ok_of_written h
  exact .of_eq rfl rfl rfl

theorem shrinks_deleteVariableRow (v : EnvironmentVariable) (h : deleteVariableRow db v = .ok db') :
    db.Shrinks db' := by
  obtain ⟨t, -, rfl⟩ := ok_of_written h
  exact .of_eq rfl rfl rfl

theorem shrinks_deleteMemberRow (m : OrganizationMember) (h : deleteMemberRow db m = .ok db') : db.Shrinks db' := by
  obtain ⟨t, -, rfl⟩ := ok_of_written h
  exact .of_eq rfl rfl rfl

theorem shrinks_deleteScheduleRow (sc : Schedule) (h : deleteScheduleRow db sc = .ok db') : db.Shrinks db' := by
  obtain ⟨t, ht, rfl⟩ := ok_of_written h
  rw [deleteRow_ok ht]
  exact ⟨fun _ h => h, fun _ h => h, fun _ h => (Table.mem_filter.1 h).1⟩

theorem shrinks_deleteApiRequestRow (r : ApiRequest) (h : deleteApiRequestRow db r = .ok db') :
    db.Shrinks db' := by
  obtain ⟨-, -, h⟩ := bind_eq_ok_iff.1 h
  obtain ⟨db₁, h₁, h⟩ := bind_eq_ok_iff.1 h
  obtain ⟨t, -, rfl⟩ := ok_of_written h
  exact (shrinks_foldlM (fun _ a _ => shrinks_deleteAssertionRow a) _ h₁).trans (.of_eq rfl rfl rfl)

theorem shrinks_deleteCollectionRow (c : Collection) (h : deleteCollectionRow db c = .ok db') :
    db.Shrinks db' := by
  obtain ⟨-, -, h⟩ := bind_eq_ok_iff.1 h
  obtain ⟨db₁, h₁, h⟩ := bind_eq_ok_iff.1 h
  obtain ⟨db₂, h₂, h⟩ := bind_eq_ok_iff.1 h
  obtain ⟨t, -, rfl⟩ := ok_of_written h
  have hrequests := shrinks_foldlM (fun _ r _ => shrinks_deleteApiRequestRow r) _ h₁
  have hschedules := shrinks_foldlM (fun _ sc _ => shrinks_deleteScheduleRow sc) _ h₂
  exact (hrequests.trans hschedules).trans (.of_eq rfl rfl rfl)

theorem shrinks_deleteProjectRow (p : Project) (h : deleteProjectRow db p = .ok db') : db.Shrinks db' := by
  obtain ⟨db₁, h₁, h⟩ := bind_eq_ok_iff.1 h
  obtain ⟨db₂, h₂, h⟩ := bind_eq_ok_iff.1 h
  obtain ⟨t, -, rfl⟩ := ok_of_written h
  have hcollections := shrinks_foldlM (fun _ c _ => shrinks_deleteCollectionRow c) _ h₁
  have hvariables := shrinks_foldlM (fun _ v _ => shrinks_deleteVariableRow v) _ h₂
  exact (hcollections.trans hvariables).trans (.of_eq rfl rfl rfl)

theorem shrinks_deleteOrganizationRow (o : Organization) (h : deleteOrganizationRow db o = .ok db') :
    db.Shrinks db' := by
  obtain ⟨db₁, h₁, h⟩ := bind_eq_ok_iff.1 h
  obtain ⟨db₂, h₂, h⟩ := bind_eq_ok_iff.1 h
  obtain ⟨t, -, rfl⟩ := ok_of_written h
  have hmembers := shrinks_foldlM (fun _ m _ => shrinks_deleteMemberRow m) _ h₁
  have hprojects := shrinks_foldlM (fun _ p _ => shrinks_deleteProjectRow p) _ h₂
  exact (hmembers.trans hprojects).trans (.of_eq rfl rfl rfl)

/-! The requests that create no run and write no schedule. -/

section
variable {user : User} {id : UUID}

theorem onward_createOrganization (name slug : String) :
    Relates (Onward lib) (OrganizationService.createOrganization user name slug) := by
  refine (onward_onIntegrityError ?_ _).bind fun _ => relates_pure _
  refine Relates.bind ?_ fun organization => (readOnly_now.relates.bind fun at_ => ?_).bind fun _ => relates_pure _
  · refine (onward_generateIds _).bind fun _ => readOnly_now.relates.bind fun at_ => ?_
    refine (onward_write ?_).bind fun _ => relates_pure _
    exact fun _ _ => .of_eq rfl rfl rfl
  · refine (onward_write ?_).bind fun _ => relates_pure _
    exact fun _ _ => .of_eq rfl rfl rfl

theorem onward_updateOrganization (name slug : Option String) :
    Relates (Onward lib) (OrganizationService.updateOrganization user id name slug) := by
  refine (readOnly_requireMembership _ _ _ _).relates.bind fun _ => (readOnly_query _).relates.bind fun _ =>
    (readOnly_existing _ _).relates.bind fun _ => ?_
  refine (onward_onIntegrityError ?_ _).bind fun _ => relates_pure _
  refine (onward_write ?_).bind fun _ => relates_pure _
  exact fun _ _ => .of_eq rfl rfl rfl

theorem onward_deleteOrganization : Relates (Onward lib) (OrganizationService.deleteOrganization user id) :=
  (readOnly_requireMembership _ _ _ _).relates.bind fun _ => (readOnly_query _).relates.bind fun _ =>
    (readOnly_existing _ _).relates.bind fun o _ => onward_flush fun _ => shrinks_deleteOrganizationRow o

theorem onward_addMemberRow (target : UUID) (role : OrganizationRole) :
    Relates (Onward lib) (OrganizationMemberRepository.addMember id target role) := by
  refine readOnly_now.relates.bind fun _ => (onward_write ?_).bind fun _ => relates_pure _
  exact fun _ _ => .of_eq rfl rfl rfl

/-- A check that may raise, and then the rest. -/
theorem onward_unless {α : Type} {p : Prop} [Decidable p] {e : AppError} {m : ServiceM α}
    (hm : Relates (Onward lib) m) : Relates (Onward lib) (do
      if p then raise e
      m) := by
  dsimp only
  split
  · exact Relates.bind (keeps_throw _ : ReadOnly _).relates fun _ => hm
  · exact hm

theorem onward_addMember (email : String) (role : OrganizationRole) :
    Relates (Onward lib) (OrganizationService.addMember lib user id email role) := by
  refine (readOnly_requireMembership _ _ _ _).relates.bind fun membership => onward_unless ?_
  refine (readOnly_query _).relates.bind fun _ => (readOnly_existing _ _).relates.bind fun _ =>
    (readOnly_query _).relates.bind fun found => onward_unless ?_
  exact onward_onIntegrityError (onward_addMemberRow _ role) _

theorem onward_updateMemberRole (target : UUID) (role : OrganizationRole) :
    Relates (Onward lib) (OrganizationService.updateMemberRole user id target role) := by
  refine (readOnly_requireMembership _ _ _ _).relates.bind fun _ => (readOnly_query _).relates.bind fun _ =>
    (readOnly_existing _ _).relates.bind fun membership => ?_
  have hupdate : Relates (Onward lib) (OrganizationMemberRepository.updateRole membership role) := by
    refine (onward_replace ?_).bind fun _ => relates_pure _
    exact fun _ _ => .of_eq rfl rfl rfl
  dsimp only
  split
  · exact (readOnly_keepOwner id).relates.bind fun _ => hupdate
  · exact hupdate

theorem onward_removeMember (target : UUID) :
    Relates (Onward lib) (OrganizationService.removeMember user id target) := by
  unfold OrganizationService.removeMember
  have hrest : ∀ membership : OrganizationMember, Relates (Onward lib) (do
      if membership.role = .owner then OrganizationService.keepOwner id
      OrganizationMemberRepository.removeMember membership) := by
    intro membership
    have hremove : Relates (Onward lib) (OrganizationMemberRepository.removeMember membership) :=
      fun _ => onward_flush fun _ => shrinks_deleteMemberRow membership
    dsimp only
    split
    · exact (readOnly_keepOwner id).relates.bind fun _ => hremove
    · exact hremove
  dsimp only
  split
  · exact (readOnly_requireMembership _ _ _ _).relates.bind hrest
  · exact (readOnly_requireMembership _ _ _ _).relates.bind fun _ => (readOnly_query _).relates.bind fun _ =>
      (readOnly_existing _ _).relates.bind hrest

theorem onward_createProject (name : String) (description : Option String) :
    Relates (Onward lib) (ProjectService.createProject user id name description) := by
  refine (readOnly_requireMembership _ _ _ _).relates.bind fun _ => (onward_generateIds _).bind fun _ =>
    readOnly_now.relates.bind fun at_ => ?_
  refine (onward_write ?_).bind fun _ => relates_pure _
  exact fun _ _ => .of_eq rfl rfl rfl

theorem onward_updateProject (updateData : ProjectUpdate) :
    Relates (Onward lib) (ProjectService.updateProject user id updateData) := by
  refine (readOnly_getAuthorizedProject _ _ _).relates.bind fun _ => (onward_replace ?_).bind fun _ => relates_pure _
  exact fun _ _ => .of_eq rfl rfl rfl

theorem onward_deleteProject : Relates (Onward lib) (ProjectService.deleteProject user id) :=
  (readOnly_getAuthorizedProject _ _ _).relates.bind fun p _ => onward_flush fun _ => shrinks_deleteProjectRow p

theorem onward_createCollection (name : String) (description : Option String) :
    Relates (Onward lib) (CollectionService.createCollection user id name description) := by
  refine (readOnly_getAuthorizedProject _ _ _).relates.bind fun _ => (onward_generateIds _).bind fun _ =>
    readOnly_now.relates.bind fun at_ => ?_
  refine (onward_write ?_).bind fun _ => relates_pure _
  exact fun _ _ => .of_eq rfl rfl rfl

theorem onward_updateCollection (updateData : CollectionUpdate) :
    Relates (Onward lib) (CollectionService.updateCollection user id updateData) := by
  refine (readOnly_getAuthorizedCollection _ _ _).relates.bind fun _ =>
    (onward_replace ?_).bind fun _ => relates_pure _
  exact fun _ _ => .of_eq rfl rfl rfl

theorem onward_deleteCollection : Relates (Onward lib) (CollectionService.deleteCollection user id) :=
  (readOnly_getAuthorizedCollection _ _ _).relates.bind fun c _ =>
    onward_flush fun _ => shrinks_deleteCollectionRow c

theorem onward_createRequest (fields : ApiRequestCreate) :
    Relates (Onward lib) (ApiRequestService.createRequest user id fields) := by
  unfold ApiRequestService.createRequest
  refine (readOnly_organizationIdForCollection _ _).relates.bind fun _ =>
    (readOnly_requireMembership _ _ _ _).relates.bind fun _ => ?_
  have hcreate : ∀ r : ApiRequest, Relates (Onward lib) (ApiRequestRepository.create r) := by
    intro r
    refine (onward_generateIds _).bind fun _ => readOnly_now.relates.bind fun at_ => ?_
    refine (onward_write ?_).bind fun _ => relates_pure _
    exact fun _ _ => .of_eq rfl rfl rfl
  dsimp only
  split
  · exact (relates_pure _).bind fun _ => hcreate _
  · exact ((readOnly_query _).bind fun _ => keeps_pure _ : ReadOnly _).relates.bind fun _ => hcreate _

theorem onward_updateRequest (fields : ApiRequestUpdate) :
    Relates (Onward lib) (ApiRequestService.updateRequest user id fields) := by
  refine (readOnly_getAuthorizedRequest _ _ _).relates.bind fun _ => (onward_replace ?_).bind fun _ => relates_pure _
  exact fun _ _ => .of_eq rfl rfl rfl

theorem onward_deleteRequest : Relates (Onward lib) (ApiRequestService.deleteRequest user id) :=
  (readOnly_getAuthorizedRequest _ _ _).relates.bind fun r _ =>
    onward_flush fun _ => shrinks_deleteApiRequestRow r

theorem onward_createAssertion (type : AssertionType) (config : Dict String Json) :
    Relates (Onward lib) (AssertionService.createAssertion user id type config) := by
  refine (readOnly_organizationIdForRequest _).relates.bind fun _ =>
    (readOnly_requireMembership _ _ _ _).relates.bind fun _ => (onward_generateIds _).bind fun _ =>
      readOnly_now.relates.bind fun at_ => ?_
  refine (onward_write ?_).bind fun _ => relates_pure _
  exact fun _ _ => .of_eq rfl rfl rfl

theorem onward_deleteAssertion : Relates (Onward lib) (AssertionService.deleteAssertion user id) :=
  (readOnly_query _).relates.bind fun _ => (readOnly_existing _ _).relates.bind fun a =>
    (readOnly_organizationIdForRequest _).relates.bind fun _ =>
      (readOnly_requireMembership _ _ _ _).relates.bind fun _ _ =>
        onward_flush fun _ => shrinks_deleteAssertionRow a

theorem onward_createVariable (key value : String) (isSecret : Bool) :
    Relates (Onward lib) (EnvironmentVariableService.createVariable user id key value isSecret) := by
  refine (readOnly_organizationIdForProject _).relates.bind fun _ =>
    (readOnly_requireMembership _ _ _ _).relates.bind fun membership => onward_unless ?_
  refine onward_onIntegrityError ?_ _
  refine readOnly_now.relates.bind fun at_ => (onward_generateIds _).bind fun _ => ?_
  refine (onward_write ?_).bind fun _ => relates_pure _
  exact fun _ _ => .of_eq rfl rfl rfl

theorem onward_updateVariable (fields : EnvironmentVariableUpdate) :
    Relates (Onward lib) (EnvironmentVariableService.updateVariable user id fields) := by
  refine (readOnly_getAuthorizedVariable _ _).relates.bind fun found => onward_unless ?_
  refine onward_onIntegrityError ?_ _
  unfold EnvironmentVariableRepository.update
  split
  · exact relates_pure _
  · refine readOnly_now.relates.bind fun at_ => (onward_write ?_).bind fun _ => relates_pure _
    exact fun _ _ => .of_eq rfl rfl rfl

theorem onward_deleteVariable : Relates (Onward lib) (EnvironmentVariableService.deleteVariable user id) :=
  (readOnly_getAuthorizedVariable _ _).relates.bind fun found =>
    onward_unless fun _ => onward_flush fun _ => shrinks_deleteVariableRow found.1

theorem onward_deleteSchedule : Relates (Onward lib) (ScheduleService.deleteSchedule user id) :=
  (readOnly_getAuthorizedSchedule _ _ _).relates.bind fun sc _ => onward_flush fun _ => shrinks_deleteScheduleRow sc

/-! The schedules that are written. -/

theorem onward_schedule {f : Database → Except Exn Database} (row : Schedule)
    (hf : ∀ db', f s.db = .ok db' → db' = { s.db with schedules := s.db.schedules.set row })
    (hrow : row ∈ s.db.schedules.rows ∨ row.Computed lib s.now) : RelatesFrom (Onward lib) (flush f) s := by
  refine onward_of_flush fun db' hdb => ?_
  obtain rfl := hf db' hdb
  refine ⟨fun _ h => .inl h, fun _ h => .inl h, fun _ h => .inl h, fun sc hsc => ?_, le_rfl, rfl⟩
  rcases Table.mem_rows_set hsc with rfl | hsc
  · exact hrow
  · exact .inl hsc

/-- Where `compute_next_run_at` returns, the session is as it was. -/
theorem some_computeNextRunAt_ok {expression timezone : String} {nextRunAt : Option Timestamp}
    (h : (some <$> computeNextRunAt lib expression timezone : ServiceM _) s = (.ok nextRunAt, s')) :
    s' = s ∧ ∃ next, lib.cronNext expression timezone s.now = .ok next ∧ nextRunAt = some next := by
  rw [map_eq_pure_bind] at h
  obtain ⟨next, s₁, hnext, hreturn⟩ := ok_of_bind h
  obtain ⟨rfl, hcron⟩ := computeNextRunAt_ok hnext
  cases hreturn
  exact ⟨rfl, next, hcron, rfl⟩

theorem readOnly_someNextRunAt (expression timezone : String) :
    ReadOnly (some <$> computeNextRunAt lib expression timezone) := by
  rw [map_eq_pure_bind]
  exact (readOnly_computeNextRunAt _ _ _).bind fun _ => keeps_pure _

theorem onward_createScheduleRow (row : Schedule) (hrow : row.Computed lib s.now) :
    RelatesFrom (Onward lib) (ScheduleRepository.create row) s := by
  refine (onward_generateIds 1 s).bind fun newId s₁ hid => ?_
  cases hid
  refine (readOnly_now.relates _).bind fun at_ s₂ hat => ?_
  cases hat
  set written : Schedule := { row with id := s.nextId, createdAt := s.now }
  refine RelatesFrom.bind (onward_schedule written (fun db' h => ?_) (.inr hrow))
    fun _ s₃ _ => relates_pure _ s₃
  obtain ⟨-, schedules, hu, rfl⟩ := ok_of_required h
  rw [(insertRow_set hu).2]

theorem onward_createSchedule (expression timezone : String) (isActive : Bool) :
    Relates (Onward lib) (ScheduleService.createSchedule lib user id expression timezone isActive) := by
  unfold ScheduleService.createSchedule
  refine (readOnly_organizationIdForCollection _ _).relates.bind fun _ =>
    (readOnly_requireMembership _ _ _ _).relates.bind fun _ s => ?_
  dsimp only
  split
  · refine ((readOnly_someNextRunAt _ _).relates s).bind fun nextRunAt s' h => ?_
    obtain ⟨rfl, hnext⟩ := some_computeNextRunAt_ok h
    exact onward_createScheduleRow _ (.inr hnext)
  · refine (relates_pure none s).bind fun nextRunAt s' h => ?_
    cases h
    exact onward_createScheduleRow _ (.inl rfl)

theorem onward_updateScheduleRow (row : Schedule) (hrow : row ∈ s.db.schedules.rows ∨ row.Computed lib s.now) :
    RelatesFrom (Onward lib) (ScheduleRepository.update row) s := by
  refine RelatesFrom.bind (onward_schedule row (fun db' h => ?_) hrow) fun _ s' _ => relates_pure _ s'
  obtain ⟨schedules, hu, rfl⟩ := ok_of_written h
  rw [updateRow_ok hu]

theorem onward_updateSchedule (fields : ScheduleUpdate) :
    Relates (Onward lib) (ScheduleService.updateSchedule lib user id fields) := by
  unfold ScheduleService.updateSchedule
  intro s
  refine ((readOnly_getAuthorizedSchedule _ _ _).relates s).bind fun sc s' hsc => ?_
  obtain rfl := (readOnly_getAuthorizedSchedule _ _ _).same hsc
  have hrow : sc ∈ s'.db.schedules.rows := (Table.get?_eq_some_iff.1 (getAuthorizedSchedule_owned hsc).1).1
  dsimp only
  split
  · split
    · refine ((readOnly_someNextRunAt _ _).relates s').bind fun nextRunAt s'' h => ?_
      obtain ⟨rfl, hnext⟩ := some_computeNextRunAt_ok h
      exact onward_updateScheduleRow _ (.inr (.inr hnext))
    · refine (relates_pure none s').bind fun nextRunAt s'' h => ?_
      cases h
      exact onward_updateScheduleRow _ (.inr (.inl rfl))
  · -- a PATCH that names no field
    rename_i hnone
    simp only [not_or, Option.not_isSome_iff_eq_none] at hnone
    obtain ⟨hcron, htimezone, hactive⟩ := hnone
    refine onward_updateScheduleRow _ (.inl ?_)
    rw [ScheduleUpdate.applyTo, hcron, htimezone, hactive]
    exact hrow

/-! The runs that are created. -/

theorem onward_createRunRow (run : TestRun) : Relates (Onward lib) (TestRunRepository.create run) := by
  intro s
  refine (onward_generateIds 1 s).bind fun newId s₁ hid => ?_
  cases hid
  refine (readOnly_now.relates _).bind fun at_ s₂ hat => ?_
  cases hat
  refine RelatesFrom.bind (onward_of_flush fun db' h => ?_) fun _ s₃ _ => relates_pure _ s₃
  obtain ⟨-, testRuns, hu, rfl⟩ := ok_of_required h
  rw [(insertRow_set hu).2]
  refine ⟨fun k hk => ?_, fun _ h => .inl h, fun _ h => .inl h, fun _ h => .inl h, le_rfl, rfl⟩
  rcases Table.mem_keys_set.1 hk with rfl | hk
  · exact .inr (Nat.lt_succ_self _)
  · exact .inl hk

theorem keys_insertTasks (tasks : List TestTask) (h : tasks.foldlM TestTaskRepository.insert db = .ok db') :
    db' = { db with testTasks := db'.testTasks } ∧
      ∀ k ∈ db'.testTasks.keys, k ∈ db.testTasks.keys ∨ ∃ t ∈ tasks, t.id = k := by
  induction tasks generalizing db with
  | nil =>
    cases h
    exact ⟨rfl, fun _ hk => .inl hk⟩
  | cons t tasks ih =>
    rw [List.foldlM_cons] at h
    obtain ⟨db₁, hinsert, h⟩ := bind_eq_ok_iff.1 h
    obtain ⟨-, testTasks, hu, rfl⟩ := ok_of_required hinsert
    obtain ⟨hdb, hkeys⟩ := ih h
    rw [(insertRow_set hu).2] at hkeys
    refine ⟨hdb, fun k hk => ?_⟩
    rcases hkeys k hk with hk | ⟨q, hq, rfl⟩
    · rcases Table.mem_keys_set.1 hk with rfl | hk
      · exact .inr ⟨t, List.mem_cons_self, rfl⟩
      · exact .inl hk
    · exact .inr ⟨q, List.mem_cons_of_mem _ hq, rfl⟩

theorem id_lt_of_mem_assignIds {first : UUID} {tasks : List TestTask} {t : TestTask}
    (h : t ∈ TestTaskRepository.assignIds first tasks) : t.id < first + tasks.length := by
  have hid := List.mem_map_of_mem (f := TestTask.id) h
  rw [ids_assignIds, List.mem_range'_1] at hid
  exact hid.2

theorem onward_bulkCreate (tasks : List TestTask) : Relates (Onward lib) (TestTaskRepository.bulkCreate tasks) := by
  intro s
  refine (onward_generateIds tasks.length s).bind fun first s₁ hid => ?_
  cases hid
  refine RelatesFrom.bind (onward_of_flush fun db' h => ?_) fun _ s₂ _ => relates_pure _ s₂
  obtain ⟨hdb, hkeys⟩ := keys_insertTasks _ h
  rw [hdb]
  refine ⟨fun _ h => .inl h, fun k hk => ?_, fun _ h => .inl h, fun _ h => .inl h, le_rfl, rfl⟩
  rcases hkeys k hk with hk | ⟨t, ht, rfl⟩
  · exact .inl hk
  · exact .inr (id_lt_of_mem_assignIds ht)

section
variable {collectionId initiatedBy : UUID} {runType : TestRunType} {dataRows : Option (List (Dict String String))}

theorem onward_planRun :
    Relates (Onward lib) (TestRunService.planRun collectionId initiatedBy runType dataRows) := by
  unfold TestRunService.planRun
  refine (readOnly_query _).relates.bind fun requests => ?_
  split
  · exact (keeps_throw _ : ReadOnly _).relates
  refine (readOnly_query _).relates.bind fun collection => Relates.bind ?_ fun projectId => ?_
  · cases collection with
    | none => exact (keeps_throw _ : ReadOnly _).relates
    | some c => exact relates_pure c.projectId
  · exact (readOnly_query _).relates.bind fun _ => readOnly_now.relates.bind fun _ =>
      (onward_createRunRow _).bind fun _ => (onward_bulkCreate _).bind fun _ => relates_pure _

/-- The tasks that are sent have their ids. -/
theorem id_lt_of_planned {planned : TestRun × List TestTask}
    (h : TestRunService.planRun collectionId initiatedBy runType dataRows s = (.ok planned, s')) :
    ∀ t ∈ planned.2, t.id < s'.nextId := by
  cases hfailed : s.failed with
  | true =>
    have hquery : ApiRequestRepository.listByCollection collectionId s = (.error pendingRollbackError, s) := by
      simp [ApiRequestRepository.listByCollection, query, hfailed]
    rw [TestRunService.planRun, bind_of_error _ hquery] at h
    cases h
  | false =>
    obtain ⟨hreq, ⟨c, hc⟩, -⟩ := planRun_ok hfailed h
    obtain ⟨config, hplan⟩ := planRun_eq initiatedBy runType dataRows hfailed hreq hc
    rw [hplan] at h
    obtain ⟨_, s₁, hflush, hrest⟩ := ok_of_bind h
    obtain ⟨created, s₂, hcreate, hreturn⟩ := ok_of_bind hrest
    cases hreturn
    obtain ⟨first, s₃, hid, htasks⟩ := ok_of_bind hcreate
    cases hid
    obtain ⟨_, s₄, hinsert, hreturn⟩ := ok_of_bind htasks
    cases hreturn
    obtain ⟨db, -, rfl⟩ := flush_ok hinsert
    exact fun t ht => id_lt_of_mem_assignIds ht

theorem onward_callRedis {effect : Stream → Stream}
    (h : ∀ i ∈ (effect s.stream).log, i ∈ s.stream.log ∨ i < s.nextId) :
    RelatesFrom (Onward lib) (callRedis effect) s := by
  refine ⟨fun _ h => .inl h, fun _ h => .inl h, fun i hi => ?_, fun _ h => .inl h, le_rfl, rfl⟩
  have hi : i ∈ (if (s.redis s.redisCalls).tookEffect then effect s.stream else s.stream).log := hi
  split at hi
  · exact h i hi
  · exact .inl hi

theorem onward_enqueueAll (tasks : List TestTask) (h : ∀ t ∈ tasks, t.id < s.nextId) :
    RelatesFrom (Onward lib) (tasks.forM fun t => enqueue t.id) s := by
  induction tasks generalizing s with
  | nil => exact relates_pure _ s
  | cons t tasks ih =>
    rw [List.forall_mem_cons] at h
    refine RelatesFrom.bind (onward_callRedis fun i hi => ?_) fun _ s' hs' => ih fun q hq => ?_
    · rcases List.mem_append.1 hi with hi | hi
      · exact .inl hi
      · exact .inr (List.mem_singleton.1 hi ▸ h.1)
    · obtain ⟨-, rfl⟩ := Prod.mk.inj hs'
      exact h.2 q hq

theorem onward_createRunFor :
    Relates (Onward lib) (TestRunService.createRunFor collectionId initiatedBy runType dataRows) := by
  intro s
  refine (onward_planRun s).bind fun planned s₁ hplan => ?_
  refine RelatesFrom.bind ?_ fun _ s₂ _ => relates_pure _ s₂
  refine RelatesFrom.bind (onward_callRedis fun i hi => .inl hi) fun _ s₂ hs₂ => onward_enqueueAll _ fun t ht => ?_
  obtain ⟨-, rfl⟩ := Prod.mk.inj hs₂
  exact id_lt_of_planned hplan t ht

end

theorem onward_createRun (dataRows : Option (List (Dict String String))) :
    Relates (Onward lib) (TestRunService.createRun user id dataRows) :=
  (readOnly_organizationIdForCollection _ _).relates.bind fun _ =>
    (readOnly_requireMembership _ _ _ _).relates.bind fun _ => onward_createRunFor

/-! Every request, and the sweep. -/

theorem onward_unit {α : Type} {m : ServiceM α} (hm : Relates (Onward lib) m) :
    Relates (Onward lib) (do let _ ← m; return ()) := hm.bind fun _ => relates_pure _

theorem onward_read {α : Type} {m : ServiceM α} (hm : ReadOnly m) : Relates (Onward lib) (do let _ ← m; return ()) :=
  onward_unit hm.relates

theorem onward_apply {k : Kind} (op : Operation k) : Relates (Onward lib) (op.apply lib user id) := by
  cases op with
  | getOrganization =>
    exact onward_read ((readOnly_requireMembership _ _ _ _).bind fun _ => (readOnly_query _).bind fun _ =>
      (readOnly_existing _ _).bind fun _ => keeps_pure _)
  | updateOrganization name slug => exact onward_unit (onward_updateOrganization name slug)
  | deleteOrganization => exact onward_deleteOrganization
  | listMembers => exact onward_read (readOnly_checked (readOnly_query _))
  | addMember email role => exact onward_unit (onward_addMember email role)
  | updateMemberRole target role => exact onward_unit (onward_updateMemberRole target role)
  | removeMember target => exact onward_removeMember target
  | createProject name description => exact onward_unit (onward_createProject name description)
  | listProjects => exact onward_read (readOnly_checked (readOnly_query _))
  | getProject => exact onward_read (readOnly_getAuthorizedProject _ _ _)
  | updateProject updateData => exact onward_unit (onward_updateProject updateData)
  | deleteProject => exact onward_deleteProject
  | createCollection name description => exact onward_unit (onward_createCollection name description)
  | listCollections => exact onward_read ((readOnly_getAuthorizedProject _ _ _).bind fun _ => readOnly_query _)
  | createVariable key value isSecret => exact onward_unit (onward_createVariable key value isSecret)
  | listVariables =>
    exact onward_read ((readOnly_organizationIdForProject _).bind fun _ => readOnly_checked (readOnly_query _))
  | getCollection => exact onward_read (readOnly_getAuthorizedCollection _ _ _)
  | updateCollection updateData => exact onward_unit (onward_updateCollection updateData)
  | deleteCollection => exact onward_deleteCollection
  | createRequest fields => exact onward_unit (onward_createRequest fields)
  | listRequests =>
    exact onward_read ((readOnly_organizationIdForCollection _ _).bind fun _ => readOnly_checked (readOnly_query _))
  | createSchedule expression timezone isActive =>
    exact onward_unit (onward_createSchedule expression timezone isActive)
  | listSchedules =>
    exact onward_read ((readOnly_organizationIdForCollection _ _).bind fun _ => readOnly_checked (readOnly_query _))
  | createRun dataRows => exact onward_unit (onward_createRun dataRows)
  | listRuns status =>
    exact onward_read ((readOnly_organizationIdForCollection _ _).bind fun _ => readOnly_checked (readOnly_query _))
  | getRequest => exact onward_read (readOnly_getAuthorizedRequest _ _ _)
  | updateRequest fields => exact onward_unit (onward_updateRequest fields)
  | deleteRequest => exact onward_deleteRequest
  | createAssertion type config => exact onward_unit (onward_createAssertion type config)
  | listAssertions =>
    exact onward_read ((readOnly_organizationIdForRequest _).bind fun _ => readOnly_checked (readOnly_query _))
  | deleteAssertion => exact onward_deleteAssertion
  | getVariable => exact onward_read ((readOnly_getAuthorizedVariable _ _).bind fun _ => keeps_pure _)
  | updateVariable fields => exact onward_unit (onward_updateVariable fields)
  | deleteVariable => exact onward_deleteVariable
  | getSchedule => exact onward_read (readOnly_getAuthorizedSchedule _ _ _)
  | updateSchedule fields => exact onward_unit (onward_updateSchedule fields)
  | deleteSchedule => exact onward_deleteSchedule
  | getRun => exact onward_read (readOnly_getAuthorizedRun _ _)
  | listTasks status limit offset =>
    exact onward_read ((readOnly_getAuthorizedRun _ _).bind fun _ => (readOnly_query _).bind fun _ =>
      (readOnly_query _).bind fun _ => keeps_pure _)
  | getTaskDetailIn taskId => exact onward_read (readOnly_getTaskDetail _ _)
  | exportResults =>
    exact onward_read ((readOnly_getAuthorizedRun _ _).bind fun _ => (readOnly_query _).bind fun _ =>
      keeps_pure _)
  | getTaskDetail runId => exact onward_read (readOnly_getTaskDetail _ _)

theorem onward_respond (call : ApiCall) : Relates (Onward lib) (call.respond lib user) := by
  cases call with
  | createOrganization name slug => exact onward_unit (onward_createOrganization name slug)
  | listMyOrganizations => exact onward_read (readOnly_query _)
  | on op id => exact onward_apply op

theorem onward_commit : Relates (Onward lib) commit := by
  intro s
  unfold RelatesFrom commit
  split
  · exact .refl s
  · exact .of_db rfl rfl le_rfl rfl

/-- One round of a sweep: a run is created or not, and then the schedule moves on. -/
theorem onward_triggerSchedule (sc : Schedule) : Relates (Onward lib) (triggerSchedule lib sc) := by
  refine Relates.bind ?_ fun triggered s => ?_
  · exact (onward_createRunFor.bind fun _ => relates_pure _).tryCatch fun _ => relates_pure _
  · refine ((readOnly_computeNextRunAt _ _ _).relates s).bind fun next s₁ hnext => ?_
    obtain ⟨rfl, hcron⟩ := computeNextRunAt_ok hnext
    refine (readOnly_now.relates s₁).bind fun at_ s₂ hat => ?_
    cases hat
    refine (onward_updateScheduleRow _ (.inr ?_)).bind fun _ s₃ _ => relates_pure _ s₃
    exact .inr ⟨next, hcron, rfl⟩

theorem onward_triggerAll (due : List Schedule) (count : ℕ) : Relates (Onward lib) (triggerAll lib due count) := by
  induction due generalizing count with
  | nil => exact relates_pure _
  | cons sc due ih => exact (onward_triggerSchedule sc).bind fun _ => ih _

theorem onward_cronSweepOnce (batchSize : ℕ) : Relates (Onward lib) (cronSweepOnce lib batchSize) := by
  refine readOnly_now.relates.bind fun at_ => (readOnly_listDue _ _).relates.bind fun due => ?_
  split
  · exact relates_pure 0
  · exact (onward_triggerAll _ 0).bind fun _ => onward_commit.bind fun _ => relates_pure _

end

/-! What is committed. -/

/-- What the computation leaves committed is what was, or what the session holds in the end. -/
def SettlesFrom {α : Type} (m : ServiceM α) (s : Session) : Prop :=
  (m s).2.committed = s.committed ∨ (m s).2.committed = (m s).2.db

theorem settles_commit {α : Type} (a : α) (s : Session) : SettlesFrom (do commit; return a) s := by
  unfold SettlesFrom
  rcases h : commit s with ⟨r, s'⟩
  have hdb : s'.db = s.db := by
    have hkeeps : (commit s).2.db = s.db := by
      unfold commit
      split <;> rfl
    rwa [h] at hkeeps
  have hcases := committed_commit s
  rw [h, ← hdb] at hcases
  rw [bind_return h]
  exact hcases

theorem settles_bind {α β : Type} {m : ServiceM α} {k : α → ServiceM β} (hm : KeepsFrom Session.committed m s)
    (hk : ∀ a s', SettlesFrom (k a) s') : SettlesFrom (m >>= k) s := by
  unfold KeepsFrom at hm
  unfold SettlesFrom
  rcases h : m s with ⟨r, s'⟩
  rw [h] at hm
  cases r with
  | ok a =>
    rw [bind_of_ok k h, ← hm]
    exact hk a s'
  | error e =>
    rw [bind_of_error k h]
    exact .inl hm

theorem settles_cronSweepOnce (batchSize : ℕ) (s : Session) : SettlesFrom (cronSweepOnce lib batchSize) s := by
  refine settles_bind (readOnly_now.uncommitted s) fun at_ s => ?_
  refine settles_bind ((readOnly_query _).uncommitted s) fun due s => ?_
  split
  · exact .inl rfl
  · exact settles_bind (uncommitted_triggerAll lib due 0 s) settles_commit

/-- What a transaction leaves is onward of what it found. -/
theorem onward_transact {α : Type} {m : ServiceM α} {w : World} {x : Surroundings} (hm : Relates (Onward lib) m)
    (hsettles : SettlesFrom m (w.session x)) : Onward lib (w.session x) ((m.transact x w).2.session x) := by
  have h : Onward lib (w.session x) (m (w.session x)).2 := hm (w.session x)
  rcases hsettles with hcommitted | hcommitted
  · have hdb : ((m.transact x w).2.session x).db = (w.session x).db := hcommitted
    exact ⟨fun k hk => .inl (hdb ▸ hk), fun k hk => .inl (hdb ▸ hk), h.log, fun sc hsc => .inl (hdb ▸ hsc),
      h.nextId, rfl⟩
  · have hdb : ((m.transact x w).2.session x).db = (m (w.session x)).2.db := hcommitted
    exact ⟨fun k hk => h.runs k (hdb ▸ hk), fun k hk => h.tasks k (hdb ▸ hk), h.log,
      fun sc hsc => h.schedules sc (hdb ▸ hsc), h.nextId, rfl⟩

/-- When a transaction happens. -/
def PlatformTransaction.at : PlatformTransaction → Timestamp
  | .request r => r.surroundings.now
  | .cronSweep _ x => x.now
  | .writeBatch _ now _ => now

theorem schedules_of_writeBatch {outcomes : List TaskOutcome} {now : Timestamp}
    (h : writeBatch outcomes now db = .ok db') : db'.schedules = db.schedules := by
  rcases parts_of_writeBatch h with ⟨-, rfl⟩ | ⟨updated, hupdate, -, rfl⟩
  · rfl
  · rw [foldl_applyOutcome_eq] at hupdate
    obtain ⟨hdb, -⟩ := foldlM_advanceRun_eq_ok (runDeltas outcomes).nodup hupdate
    rw [hdb]

/-- A batch changes rows; it adds none. -/
theorem shrinks_runWrite (outcomes : List TaskOutcome) (now : Timestamp) (call : Call) (db : Database) :
    db.Shrinks (runWrite outcomes now call db).2 := by
  rcases hwrite : writeBatch outcomes now db with e | written
  · cases call <;> simpa only [runWrite, hwrite] using .refl db
  · have hwritten := written_of_writeBatch hwrite
    have hshrinks : db.Shrinks written :=
      { runs := fun k hk => hwritten.runKeys ▸ hk
        tasks := fun k hk => by rwa [hwritten.testTasks, keys_foldl_applyOutcome] at hk
        schedules := fun sc hsc => schedules_of_writeBatch hwrite ▸ hsc }
    cases call
    · simpa only [runWrite, hwrite] using hshrinks
    · simpa only [runWrite] using .refl db
    · simpa only [runWrite, hwrite] using hshrinks

/-- A transaction on the platform, seen by anybody who looks at that time. -/
theorem onward_perform {w : World} (hlinked : w.db.Linked) (t : PlatformTransaction) {x : Surroundings}
    (hx : x.now = t.at) : Onward lib (w.session x) ((t.perform lib w).session x) := by
  have hsee : ∀ (y : Surroundings) (w' : World), y.now = x.now →
      Onward lib (w.session y) (w'.session y) → Onward lib (w.session x) (w'.session x) := by
    intro y w' hy h
    refine ⟨h.runs, h.tasks, h.log, fun sc hsc => ?_, h.nextId, rfl⟩
    rw [← show (w.session y).now = (w.session x).now from hy]
    exact h.schedules sc hsc
  cases t with
  | request r =>
    refine hsee r.surroundings _ hx.symm (onward_transact ?_ ?_)
    · exact (onward_respond r.request).bind fun _ => onward_commit.bind fun _ => relates_pure _
    · have hcommitted := (respond_leaves hlinked r.request :
        ByMember r.user (r.request.respond lib r.user) (w.session r.surroundings)).committed
      exact settles_bind hcommitted fun a s => settles_commit a s
  | cronSweep batchSize y =>
    exact hsee y _ hx.symm (onward_transact (onward_cronSweepOnce batchSize) (settles_cronSweepOnce batchSize _))
  | writeBatch outcomes now call =>
    exact (shrinks_runWrite outcomes now call w.db).onward rfl le_rfl rfl

theorem sound_perform {w : World} (hlinked : w.db.Linked) (hw : w.Sound) (t : PlatformTransaction) :
    (t.perform lib w).Sound := by
  have h : Onward lib (w.session ⟨t.at, fun _ => .ok, .ok, .table⟩) _ := onward_perform hlinked t rfl
  have hlinked' := linked_perform lib hlinked t
  refine ⟨fun r hr => ?_, fun q hq => ⟨?_, hlinked'.testTasks q hq⟩, fun i hi => ?_,
    fun sc hsc => ⟨hlinked'.schedules sc hsc, hlinked'.scheduleCreators sc hsc⟩⟩
  · rcases h.runs r.id (List.mem_map_of_mem hr) with hold | hnew
    · obtain ⟨r', hr', hid⟩ := List.mem_map.1 hold
      exact hid ▸ (hw.runs r' hr').trans_le h.nextId
    · exact hnew
  · rcases h.tasks q.id (List.mem_map_of_mem hq) with hold | hnew
    · obtain ⟨q', hq', hid⟩ := List.mem_map.1 hold
      exact hid ▸ (hw.tasks q' hq').1.trans_le h.nextId
    · exact hnew
  · exact (h.log i hi).elim (fun hold => (hw.log i hold).trans_le h.nextId) id

end

theorem after_append (lib : Libraries) (users : Table User.id) (history ts : List PlatformTransaction) :
    after lib users (history ++ ts) = ts.foldl (PlatformTransaction.perform lib) (after lib users history) :=
  List.foldl_append

theorem sound_after (lib : Libraries) (users : Table User.id) (history : List PlatformTransaction) :
    (after lib users history).Sound := by
  induction history using List.reverseRecOn with
  | nil => constructor <;> intro r hr <;> cases hr
  | append_singleton history t ih =>
    rw [after_append]
    exact sound_perform (linked_after lib users history) ih t

end ApiTesting
