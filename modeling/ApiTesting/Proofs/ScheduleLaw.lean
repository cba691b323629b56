import ApiTesting.Lib.Machine
import ApiTesting.Proofs.Launch
import ApiTesting.Proofs.Sessions
import ApiTesting.Spec.ScheduleTransactions

/-! A schedule has a next run exactly while it is active: what every row that a
transaction computes meets, and what a committed row meets as long as no update of its
next run is committed over a change of its activity that it has not seen. -/

namespace ApiTesting

open Keyed Machine ServiceM Fallible

/-- `next_run_at` is there if and only if the schedule is active. -/
def Schedule.Lawful (row : Schedule) : Prop := row.nextRunAt.isSome = row.isActive

def Database.SchedulesLawful (db : Database) : Prop := ∀ row ∈ db.schedules.rows, row.Lawful

/-- Where the statement sets the next run alone, the row is as active as it was when it
was loaded. -/
def ScheduleWrite.OnSeen (db : Database) : ScheduleWrite → Prop
  | .update loaded row =>
    (SchedulePatch.between loaded row).nextRunAt.isSome = true →
      (SchedulePatch.between loaded row).isActive = none →
        ∀ current, db.schedules.get? loaded.id = some current → current.isActive = loaded.isActive
  | _ => True

/-- No COMMIT applies an update of `next_run_at` alone to a row whose activity has changed
since the transaction read it. -/
def CommitsOnSeen (s : ScheduleStore) : ScheduleAction → Prop
  | .commit t call =>
    call.tookEffect = true → ∀ tx, s.transactions.lookup t = some tx → ∀ w ∈ tx.writes, w.OnSeen s.db
  | _ => True

section
variable {lib : Libraries} {now : Timestamp} {loaded row current : Schedule} {fields : ScheduleUpdate}

/-! The rows that are computed. -/

theorem changed_eq_none {α : Type} [DecidableEq α] {loaded value : α} :
    changed loaded value = none ↔ value = loaded := by
  unfold changed
  split <;> simp_all

theorem getD_changed {α : Type} [DecidableEq α] (loaded value : α) : (changed loaded value).getD loaded = value := by
  unfold changed
  split
  · rename_i h
    exact h.symm
  · rfl

/-- Where nobody else has changed the row, the UPDATE makes it what was computed. -/
theorem applyTo_between (hid : row.id = loaded.id) (hcol : row.collectionId = loaded.collectionId)
    (huser : row.createdBy = loaded.createdBy) (hat : row.createdAt = loaded.createdAt) :
    (SchedulePatch.between loaded row).applyTo loaded = row := by
  unfold SchedulePatch.applyTo SchedulePatch.between
  simp only [getD_changed, ← hid, ← hcol, ← huser, ← hat]

theorem lawful_withNextRun (h : withNextRun lib now loaded = .ok row) : row.Lawful ∧ row.id = loaded.id := by
  unfold withNextRun at h
  split at h
  · rename_i hactive
    cases hcron : lib.cronNext loaded.cronExpression loaded.timezone now with
    | error exc =>
      rw [hcron] at h
      cases h
    | ok next =>
      rw [hcron] at h
      cases h
      exact ⟨hactive.symm, rfl⟩
  · rename_i hactive
    cases h
    exact ⟨(Bool.eq_false_iff.2 hactive).symm, rfl⟩

theorem lawful_target (hl : loaded.Lawful) (h : fields.target lib now loaded = .ok row) :
    row.Lawful ∧ row.id = loaded.id := by
  unfold ScheduleUpdate.target at h
  split at h
  · obtain ⟨hlaw, hid⟩ := lawful_withNextRun h
    exact ⟨hlaw, hid⟩
  · rename_i hnone
    cases h
    have hactive : fields.isActive = none := by
      rw [← Option.not_isSome_iff_eq_none]
      exact fun hsome => hnone (.inr (.inr hsome))
    refine ⟨?_, rfl⟩
    unfold Schedule.Lawful ScheduleUpdate.applyTo
    rw [hactive]
    exact hl

theorem lawful_advanced (hactive : loaded.isActive = true) (h : loaded.advanced lib now = .ok row) :
    row.Lawful ∧ row.id = loaded.id := by
  unfold Schedule.advanced at h
  cases hcron : lib.cronNext loaded.cronExpression loaded.timezone now with
  | error exc =>
    rw [hcron] at h
    cases h
  | ok next =>
    rw [hcron] at h
    cases h
    exact ⟨hactive.symm, rfl⟩

/-- An update of a lawful row to a lawful one breaks the law exactly where it leaves the
activity alone and that has changed. -/
theorem lawful_applyTo_iff (hl : loaded.Lawful) (hr : row.Lawful) (hc : current.Lawful) :
    ((SchedulePatch.between loaded row).applyTo current).Lawful ↔
      ((SchedulePatch.between loaded row).nextRunAt.isSome = true →
        (SchedulePatch.between loaded row).isActive = none → current.isActive = loaded.isActive) := by
  unfold Schedule.Lawful at hl hr hc ⊢
  change ((changed loaded.nextRunAt row.nextRunAt).getD current.nextRunAt).isSome =
    (changed loaded.isActive row.isActive).getD current.isActive ↔
      ((changed loaded.nextRunAt row.nextRunAt).isSome = true →
        changed loaded.isActive row.isActive = none → _)
  by_cases hactive : row.isActive = loaded.isActive
  · rw [changed_eq_none.2 hactive, Option.getD_none]
    by_cases hnext : row.nextRunAt = loaded.nextRunAt
    · rw [changed_eq_none.2 hnext, Option.getD_none, hc]
      simp
    · have hset : changed loaded.nextRunAt row.nextRunAt = some row.nextRunAt := if_neg hnext
      rw [hset, Option.getD_some, hr, hactive]
      exact ⟨fun h _ _ => h.symm, fun h => (h rfl rfl).symm⟩
  · have hnext : row.nextRunAt ≠ loaded.nextRunAt := by
      intro heq
      rw [heq, hl] at hr
      exact hactive hr.symm
    have hset : changed loaded.nextRunAt row.nextRunAt = some row.nextRunAt := if_neg hnext
    have hset' : changed loaded.isActive row.isActive = some row.isActive := if_neg hactive
    rw [hset, hset', Option.getD_some, Option.getD_some]
    exact ⟨fun _ _ hnone => absurd hnone (Option.some_ne_none _), fun _ => hr⟩

/-! What is in the services. -/

theorem computeNextRunAt_ok {expression timezone : String} {next : Timestamp} {s s' : Session}
    (h : computeNextRunAt lib expression timezone s = (.ok next, s')) :
    s' = s ∧ lib.cronNext expression timezone s.now = .ok next := by
  unfold computeNextRunAt at h
  rw [bind_of_ok _ now_run] at h
  cases hcron : lib.cronNext expression timezone s.now with
  | error exc =>
    rw [hcron] at h
    cases h
  | ok value =>
    rw [hcron] at h
    cases h
    exact ⟨rfl, rfl⟩

/-- `compute_next_run_at(...) if is_active else None`, and what is done with it. -/
theorem withNextRun_ok {α : Type} (loaded : Schedule) {k : Option Timestamp → ServiceM α} {a : α} {s s' : Session}
    (h : (if loaded.isActive then do
        let next ← some <$> computeNextRunAt lib loaded.cronExpression loaded.timezone
        k next
      else do
        let next ← pure none
        k next : ServiceM α) s = (.ok a, s')) :
    ∃ next, withNextRun lib s.now loaded = .ok { loaded with nextRunAt := next } ∧ k next s = (.ok a, s') := by
  unfold withNextRun
  split at h
  · rename_i hactive
    rw [map_eq_pure_bind, bind_assoc] at h
    obtain ⟨value, s₁, hrun, hrest⟩ := ok_of_bind h
    obtain ⟨rfl, hcron⟩ := computeNextRunAt_ok hrun
    rw [pure_bind] at hrest
    rw [if_pos hactive, hcron]
    exact ⟨some value, rfl, hrest⟩
  · rename_i hactive
    rw [pure_bind] at h
    rw [if_neg hactive]
    exact ⟨none, rfl, h⟩

theorem update_ok {s s' : Session} {written : Schedule}
    (h : ScheduleRepository.update row s = (.ok written, s')) :
    written = row ∧ s'.db.schedules = s.db.schedules.set row := by
  obtain ⟨u, s₁, hflush, hrest⟩ := ok_of_bind h
  obtain ⟨db, hdb, rfl⟩ := flush_ok hflush
  obtain ⟨schedules, hrow, rfl⟩ := ok_of_written hdb
  cases hrest
  exact ⟨rfl, updateRow_ok hrow⟩

theorem getAuthorizedSchedule_ok {user : User} {scheduleId : UUID} {roles : Option (List OrganizationRole)}
    {s s' : Session} (h : ScheduleService.getAuthorizedSchedule user scheduleId roles s = (.ok loaded, s')) :
    s' = s ∧ s.db.schedules.get? scheduleId = some loaded := by
  obtain ⟨x, s₁, hq, h⟩ := ok_of_bind h
  obtain ⟨schedule, s₂, hx, h⟩ := ok_of_bind h
  obtain ⟨organizationId, s₃, ho, h⟩ := ok_of_bind h
  obtain ⟨member, s₄, hm, h⟩ := ok_of_bind h
  have hrow := existing_ok hx
  rw [query_ok hq] at hrow
  cases h
  refine ⟨?_, hrow⟩
  calc s' = s₃ := (readOnly_requireMembership _ _ _ _).same hm
    _ = s₂ := (readOnly_organizationIdForCollection _ _).same ho
    _ = s₁ := (readOnly_existing _ _).same hx
    _ = s := (readOnly_query _).same hq

/-- `update_schedule` writes the row the model computes from the one it has read. -/
theorem updateSchedule_ok {user : User} {scheduleId : UUID} {s s' : Session}
    (h : ScheduleService.updateSchedule lib user scheduleId fields s = (.ok row, s')) :
    ∃ loaded, s.db.schedules.get? scheduleId = some loaded ∧ fields.target lib s.now loaded = .ok row ∧
      s'.db.schedules = s.db.schedules.set row := by
  obtain ⟨loaded, s₁, hread, hrest⟩ := ok_of_bind h
  obtain ⟨hs, hrow⟩ := getAuthorizedSchedule_ok hread
  rw [hs] at hrest
  refine ⟨loaded, hrow, ?_⟩
  unfold ScheduleUpdate.target
  dsimp only at hrest
  split at hrest
  · rename_i hset
    obtain ⟨next, htarget, hwrite⟩ := withNextRun_ok (fields.applyTo loaded) hrest
    obtain ⟨hwritten, hdb⟩ := update_ok hwrite
    rw [if_pos hset, hwritten]
    exact ⟨htarget, hdb⟩
  · rename_i hset
    obtain ⟨hwritten, hdb⟩ := update_ok hrest
    rw [if_neg hset, hwritten]
    exact ⟨rfl, hdb⟩

/-- So does `create_schedule`. -/
theorem createSchedule_ok {user : User} {collectionId : UUID} {cronExpression timezone : String}
    {isActive : Bool} {s s' : Session}
    (h : ScheduleService.createSchedule lib user collectionId cronExpression timezone isActive s =
      (.ok row, s')) :
    ∃ blank, (ScheduleRequest.create collectionId user.id cronExpression timezone isActive).rows s.db s.nextId
        s.now = [blank] ∧
      withNextRun lib s.now blank = .ok row ∧ s.db.schedules.insert? row = some s'.db.schedules := by
  obtain ⟨organizationId, s₁, ho, hmember⟩ := ok_of_bind h
  obtain ⟨member, s₂, hm, hcreate⟩ := ok_of_bind hmember
  rw [(readOnly_requireMembership _ _ _ _).same hm, (readOnly_organizationIdForCollection _ _).same ho] at hcreate
  let blank : Schedule :=
    { id := s.nextId, collectionId, cronExpression, timezone, isActive, nextRunAt := none, lastRunAt := none,
      createdBy := user.id, createdAt := s.now }
  obtain ⟨next, htarget, hinsert⟩ := withNextRun_ok blank hcreate
  obtain ⟨newId, s₃, hid, hnow⟩ := ok_of_bind hinsert
  cases hid
  obtain ⟨createdAt, s₄, hat, hflush⟩ := ok_of_bind hnow
  cases hat
  obtain ⟨u, s₅, hrun, hret⟩ := ok_of_bind hflush
  obtain ⟨db, hdb, rfl⟩ := flush_ok hrun
  obtain ⟨schedules, hrow, rfl⟩ := ok_of_checked hdb
  cases hret
  exact ⟨blank, rfl, htarget, insertRow_ok hrow⟩

/-- A round of a sweep writes the row the model computes, after its creation. -/
theorem triggerSchedule_ok {triggered : Bool} {s s' : Session}
    (h : triggerSchedule lib loaded s = (.ok triggered, s')) :
    ∃ (s₁ : Session) (row : Schedule), loaded.advanced lib s₁.now = .ok row ∧
      s'.db.schedules = s₁.db.schedules.set row := by
  obtain ⟨b, s₁, htry, hcompute⟩ := ok_of_bind h
  obtain ⟨next, s₂, hnext, hnow⟩ := ok_of_bind hcompute
  obtain ⟨hs, hcron⟩ := computeNextRunAt_ok hnext
  obtain ⟨at_, s₃, hat, hupdate⟩ := ok_of_bind hnow
  cases hat
  obtain ⟨written, s₄, hwrite, hret⟩ := ok_of_bind hupdate
  obtain ⟨-, hdb⟩ := update_ok hwrite
  cases hret
  rw [hs] at hdb
  refine ⟨s₁, _, ?_, hdb⟩
  unfold Schedule.advanced
  rw [hcron]
  rfl

end

/-! What a transaction has in hand. -/

/-- A row it has read: what is due is active, and nothing else than a lawful row is read. -/
def ScheduleRequest.Reads (row : Schedule) : ScheduleRequest → Prop
  | .create .. => True
  | .sweep _ _ => row.Lawful ∧ row.isActive = true
  | _ => row.Lawful

/-- A statement is about a lawful row and makes it one. -/
def ScheduleWrite.Sound : ScheduleWrite → Prop
  | .insert row => row.Lawful
  | .update loaded row => loaded.Lawful ∧ row.Lawful
  | .delete _ => True

/-- Every row is written at most once. -/
structure ScheduleTransaction.Sound (tx : ScheduleTransaction) : Prop where
  reads : ∀ row ∈ tx.todo.getD [], tx.request.Reads row
  writes : ∀ w ∈ tx.writes, w.Sound
  once : (tx.writes.map ScheduleWrite.id ++ (tx.todo.getD []).map Schedule.id).Nodup
  fresh : tx.todo = none → tx.writes = []

section
variable {lib : Libraries} {now : Timestamp} {db : Database} {row : Schedule} {w : ScheduleWrite}
  {request : ScheduleRequest} {tx : ScheduleTransaction} {s s' : ScheduleStore}

theorem sound_writeFor (hr : request.Reads row) (h : request.writeFor lib now row = .ok w) :
    w.Sound ∧ w.id = row.id := by
  have hmap : ∀ {x : Except LibraryExn Schedule} {f : Schedule → ScheduleWrite},
      x.map f = .ok w → ∃ new, x = .ok new ∧ w = f new := by
    intro x f hx
    cases x with
    | error exc => cases hx
    | ok new =>
      cases hx
      exact ⟨new, rfl, rfl⟩
  cases request with
  | create collectionId createdBy cronExpression timezone isActive =>
    obtain ⟨new, hnew, rfl⟩ := hmap h
    exact lawful_withNextRun hnew
  | update scheduleId fields =>
    obtain ⟨new, hnew, rfl⟩ := hmap h
    exact ⟨⟨hr, (lawful_target hr hnew).1⟩, rfl⟩
  | delete scheduleId =>
    cases h
    exact ⟨trivial, rfl⟩
  | sweep batchSize ties =>
    obtain ⟨new, hnew, rfl⟩ := hmap h
    exact ⟨⟨hr.1, (lawful_advanced hr.2 hnew).1⟩, rfl⟩

theorem reads_rows (hdb : db.SchedulesLawful) (newId : UUID) :
    ∀ row ∈ request.rows db newId now, request.Reads row := by
  have hget : ∀ scheduleId, ∀ row ∈ (db.schedules.get? scheduleId).toList, row.Lawful := by
    intro scheduleId row hrow
    exact hdb row (Table.get?_eq_some_iff.1 (Option.mem_toList.1 hrow)).1
  cases request with
  | create collectionId createdBy cronExpression timezone isActive => exact fun _ _ => trivial
  | update scheduleId fields => exact hget scheduleId
  | delete scheduleId => exact hget scheduleId
  | sweep batchSize ties =>
    intro row hrow
    obtain ⟨hmem, hactive, -⟩ := mem_dueSchedules hrow
    exact ⟨hdb row hmem, hactive⟩

theorem nodup_rows (newId : UUID) : ((request.rows db newId now).map Schedule.id).Nodup := by
  have hget : ∀ x : Option Schedule, (x.toList.map Schedule.id).Nodup := by
    intro x
    cases x <;> simp
  cases request with
  | create collectionId createdBy cronExpression timezone isActive => exact List.nodup_singleton _
  | update scheduleId fields => exact hget _
  | delete scheduleId => exact hget _
  | sweep batchSize ties => exact nodup_dueSchedules db ties now batchSize

/-! What a COMMIT does to the law. -/

/-- What the statement leaves of the row. -/
def ScheduleWrite.result (w : ScheduleWrite) (current : Option Schedule) : Option Schedule :=
  match w with
  | .insert row => some row
  | .update loaded row => current.map (SchedulePatch.between loaded row).applyTo
  | .delete _ => none

theorem get?_applyTo (w : ScheduleWrite) (schedules : Table Schedule.id) (id : UUID) :
    (w.applyTo schedules).get? id = if id = w.id then w.result (schedules.get? id) else schedules.get? id := by
  cases w with
  | insert row => exact Table.get?_set schedules row id
  | update loaded row =>
    refine (Table.get?_modify schedules loaded.id id (SchedulePatch.between loaded row).applyTo fun _ => rfl).trans ?_
    split
    · rename_i hid
      subst hid
      exact (if_pos rfl).symm
    · rename_i hid
      exact (if_neg hid).symm
  | delete loaded => exact Table.get?_erase schedules loaded.id id

/-- With every row written once, a statement finds what was committed before. -/
theorem get?_committed {writes : List ScheduleWrite} (hw : (writes.map ScheduleWrite.id).Nodup) (id : UUID) :
    (ScheduleStore.committed db writes).schedules.get? id =
      match writes.find? fun w => w.id = id with
      | some w => w.result (db.schedules.get? id)
      | none => db.schedules.get? id := by
  have hfold : ∀ schedules : Table Schedule.id,
      (writes.foldl (fun schedules w => w.applyTo schedules) schedules).get? id =
        match writes.find? fun w => w.id = id with
        | some w => w.result (schedules.get? id)
        | none => schedules.get? id := by
    induction writes with
    | nil => exact fun _ => rfl
    | cons w writes ih =>
      intro schedules
      rw [List.map_cons, List.nodup_cons] at hw
      rw [List.foldl_cons, ih hw.2, get?_applyTo, List.find?_cons]
      by_cases hid : w.id = id
      · have hrest : writes.find? (fun w => w.id = id) = none := by
          rw [List.find?_eq_none]
          intro q hq hqid
          exact hw.1 (hid ▸ of_decide_eq_true hqid ▸ List.mem_map_of_mem hq)
        simp [hrest, hid]
      · simp [hid, Ne.symm hid]
  exact hfold db.schedules

theorem schedulesLawful_iff : db.SchedulesLawful ↔ ∀ id, ∀ row ∈ db.schedules.get? id, row.Lawful := by
  constructor
  · intro h id row hrow
    exact h row (Table.get?_eq_some_iff.1 hrow).1
  · intro h row hrow
    exact h row.id row (Table.get?_eq_some_iff.2 ⟨hrow, rfl⟩)

/-- One statement on a lawful row. -/
theorem lawful_result_iff (hw : w.Sound) (hdb : db.SchedulesLawful) :
    (∀ row ∈ w.result (db.schedules.get? w.id), row.Lawful) ↔ w.OnSeen db := by
  cases w with
  | insert row =>
    refine ⟨fun _ => trivial, fun _ q hq => ?_⟩
    cases hq
    exact hw
  | delete loaded => exact ⟨fun _ => trivial, by rintro _ q ⟨⟩⟩
  | update loaded row =>
    have hrow : ∀ current, db.schedules.get? loaded.id = some current → current.Lawful := fun current hc =>
      hdb current (Table.get?_eq_some_iff.1 hc).1
    constructor
    · intro h hnext hactive current hc
      refine (lawful_applyTo_iff hw.1 hw.2 (hrow current hc)).1 (h _ ?_) hnext hactive
      exact Option.mem_map.2 ⟨current, hc, rfl⟩
    · intro h q hq
      obtain ⟨current, hc, rfl⟩ := Option.mem_map.1 hq
      exact (lawful_applyTo_iff hw.1 hw.2 (hrow current hc)).2 fun hnext hactive => h hnext hactive current hc

theorem lawful_committed_iff {writes : List ScheduleWrite} (hdb : db.SchedulesLawful)
    (hw : ∀ w ∈ writes, w.Sound) (hnd : (writes.map ScheduleWrite.id).Nodup) :
    (ScheduleStore.committed db writes).SchedulesLawful ↔ ∀ w ∈ writes, w.OnSeen db := by
  rw [schedulesLawful_iff]
  constructor
  · intro h w hmem
    have hfind : writes.find? (fun q => q.id = w.id) = some w := by
      rw [List.find?_eq_some_iff_append]
      obtain ⟨pre, post, rfl⟩ := List.append_of_mem hmem
      refine ⟨decide_eq_true rfl, pre, post, rfl, fun q hq => ?_⟩
      rw [List.map_append, List.nodup_append] at hnd
      have hne := hnd.2.2 q.id (List.mem_map_of_mem hq) w.id (List.mem_map_of_mem List.mem_cons_self)
      simpa using hne
    have hw' := h w.id
    rw [get?_committed hnd, hfind] at hw'
    exact (lawful_result_iff (hw w hmem) hdb).1 hw'
  · intro h id
    rw [get?_committed hnd]
    cases hfind : writes.find? fun w => w.id = id with
    | none => exact schedulesLawful_iff.1 hdb id
    | some w =>
      have hid : w.id = id := by simpa using List.find?_some hfind
      have hmem := List.mem_of_find?_eq_some hfind
      rw [← hid]
      exact (lawful_result_iff (hw w hmem) hdb).2 (h w hmem)

/-! The steps of the machine. -/

def ScheduleStore.Sound (s : ScheduleStore) : Prop :=
  ∀ t tx, s.transactions.lookup t = some tx → tx.Sound

theorem ScheduleStore.Sound.put (h : s.Sound) (htx : tx.Sound) (t : ℕ) : (s.put t tx).Sound := by
  intro u q hq
  rw [ScheduleStore.put, Dict.lookup_put] at hq
  split at hq
  · cases hq
    exact htx
  · exact h u q hq

theorem ScheduleStore.Sound.close (h : s.Sound) (t : ℕ) : (s.close t).Sound := by
  intro u q hq
  rw [ScheduleStore.close, Dict.lookup_erase] at hq
  split at hq
  · cases hq
  · exact h u q hq

/-- A flush leaves the transaction one row further, or ends it. -/
theorem flush_cases {t : ℕ} {rest : List Schedule} (h : s.flush t tx w rest = some s') :
    s' = s.close t ∨ s' = s.put t { tx with todo := some rest } ∨
      s' = s.put t { tx with todo := some rest, writes := tx.writes ++ [w] } := by
  unfold ScheduleStore.flush at h
  split at h
  · cases h
  · dsimp only at h
    split at h
    all_goals
      cases h
      first
        | exact .inl rfl
        | exact .inr (.inr rfl)
        | exact .inr (.inl rfl)
        | skip
    split
    · exact .inr (.inr rfl)
    · exact .inr (.inl rfl)

/-- What a COMMIT that is no such update and every other step keeps. -/
theorem sound_step {a : ScheduleAction} (h : s.Sound) (hdb : s.db.SchedulesLawful)
    (hstep : ScheduleStore.step lib s a = some s') : s'.Sound := by
  cases a with
  | begin t request =>
    simp only [ScheduleStore.step] at hstep
    split at hstep
    · cases hstep
    · cases hstep
      refine h.put ⟨?_, ?_, ?_, ?_⟩ t
      · simp
      · simp
      · simp
      · simp
  | read t newId now =>
    simp only [ScheduleStore.step] at hstep
    split at hstep
    · rename_i request writes htx
      cases hstep
      have hold := h t _ htx
      have hfresh := hold.fresh rfl
      dsimp only at hfresh
      have hnew : ScheduleTransaction.Sound ⟨request, some (request.rows s.db newId now), writes⟩ :=
        { reads := reads_rows hdb newId
          writes := hold.writes
          once := by
            dsimp only
            rw [hfresh]
            exact nodup_rows newId
          fresh := by rintro ⟨⟩ }
      exact h.put hnew t
    · cases hstep
  | write t now =>
    simp only [ScheduleStore.step] at hstep
    split at hstep
    · rename_i request row rest writes htx
      have hold := h t _ htx
      split at hstep
      · rename_i w hw
        obtain ⟨hsound, hid⟩ := sound_writeFor (hold.reads row List.mem_cons_self) hw
        have hreads : ∀ q ∈ rest, request.Reads q := fun q hq => hold.reads q (List.mem_cons_of_mem _ hq)
        have honce : ((writes.map ScheduleWrite.id ++ [w.id]) ++ rest.map Schedule.id).Nodup := by
          rw [List.append_assoc, List.singleton_append, hid]
          exact hold.once
        rcases flush_cases hstep with rfl | rfl | rfl
        · exact h.close t
        · have hnew : ScheduleTransaction.Sound ⟨request, some rest, writes⟩ :=
            { reads := hreads
              writes := hold.writes
              once := honce.sublist ((List.sublist_append_left _ _).append (List.Sublist.refl _))
              fresh := by rintro ⟨⟩ }
          exact h.put hnew t
        · have hnew : ScheduleTransaction.Sound ⟨request, some rest, writes ++ [w]⟩ :=
            { reads := hreads
              writes := fun q hq => by
                rcases List.mem_append.1 hq with hq | hq
                · exact hold.writes q hq
                · rw [List.mem_singleton.1 hq]
                  exact hsound
              once := by
                dsimp only
                rw [List.map_append, List.map_singleton]
                exact honce
              fresh := by rintro ⟨⟩ }
          exact h.put hnew t
      · cases hstep
        exact h.close t
    · cases hstep
  | commit t call =>
    simp only [ScheduleStore.step] at hstep
    split at hstep
    · cases hstep
      exact h.close t
    · cases hstep
  | rollback t =>
    simp only [ScheduleStore.step] at hstep
    split at hstep
    · cases hstep
      exact h.close t
    · cases hstep

/-- Only a COMMIT changes what is committed. -/
theorem db_step {a : ScheduleAction} (hstep : ScheduleStore.step lib s a = some s') :
    s'.db = s.db ∧ CommitsOnSeen s a ∨
      ∃ t call request writes, a = .commit t call ∧
        s.transactions.lookup t = some ⟨request, some [], writes⟩ ∧
        s'.db = if call.tookEffect then ScheduleStore.committed s.db writes else s.db := by
  cases a with
  | begin t request =>
    simp only [ScheduleStore.step] at hstep
    split at hstep <;> cases hstep
    exact .inl ⟨rfl, trivial⟩
  | read t newId now =>
    simp only [ScheduleStore.step] at hstep
    split at hstep <;> cases hstep
    exact .inl ⟨rfl, trivial⟩
  | write t now =>
    simp only [ScheduleStore.step] at hstep
    split at hstep
    · split at hstep
      · rcases flush_cases hstep with rfl | rfl | rfl
        · exact .inl ⟨rfl, trivial⟩
        · exact .inl ⟨rfl, trivial⟩
        · exact .inl ⟨rfl, trivial⟩
      · cases hstep
        exact .inl ⟨rfl, trivial⟩
    · cases hstep
  | commit t call =>
    simp only [ScheduleStore.step] at hstep
    split at hstep
    · rename_i request writes htx
      cases hstep
      exact .inr ⟨t, call, request, writes, rfl, htx, rfl⟩
    · cases hstep
  | rollback t =>
    simp only [ScheduleStore.step] at hstep
    split at hstep <;> cases hstep
    exact .inl ⟨rfl, trivial⟩

/-- A step keeps the law exactly where it is no COMMIT of an update that has not seen
the activity it relies on. -/
theorem lawful_step_iff {a : ScheduleAction} (h : s.Sound) (hdb : s.db.SchedulesLawful)
    (hstep : ScheduleStore.step lib s a = some s') : s'.db.SchedulesLawful ↔ CommitsOnSeen s a := by
  rcases db_step hstep with ⟨hsame, hseen⟩ | ⟨t, call, request, writes, rfl, htx, hdb'⟩
  · rw [hsame]
    exact iff_of_true hdb hseen
  · have htx' := h t _ htx
    have hnd : (writes.map ScheduleWrite.id).Nodup := (List.nodup_append.1 htx'.once).1
    rw [hdb', CommitsOnSeen, htx]
    cases call.tookEffect with
    | false => exact iff_of_true hdb (by rintro ⟨⟩)
    | true =>
      rw [if_pos rfl, lawful_committed_iff hdb htx'.writes hnd]
      constructor
      · intro hall _ tx htx w hw
        cases htx
        exact hall w hw
      · intro hall w hw
        exact hall rfl _ rfl w hw

/-- Along a run every committed row is lawful exactly where every COMMIT is. -/
theorem always_lawful_iff {as : List ScheduleAction} {s₀ : ScheduleStore} (h₀ : s₀.Sound)
    (hlaw : s₀.db.SchedulesLawful) (hrun : Run (ScheduleStore.step lib) s₀ as s) :
    Always (ScheduleStore.step lib) (fun s => s.db.SchedulesLawful) s₀ as ↔
      Each (ScheduleStore.step lib) CommitsOnSeen s₀ as := by
  refine hrun.always_iff_each hlaw h₀ ?_ ?_
  · intro s a s' hlaw hsound hstep
    exact sound_step hsound hlaw hstep
  · intro s a s' hlaw hsound hstep
    exact lawful_step_iff hsound hlaw hstep

end

/-- No transaction is under way. -/
structure ScheduleStore.Start (s : ScheduleStore) : Prop where
  transactions : s.transactions = .empty
  lawful : s.db.SchedulesLawful

/-- In every run, `next_run_at` of every committed schedule is there exactly while it is
active, if and only if every COMMIT that sets it alone finds `is_active` as it was read. -/
theorem schedules_lawful_iff (lib : Libraries) (s₀ s : ScheduleStore) (as : List ScheduleAction)
    (h₀ : s₀.Start) (hrun : Run (ScheduleStore.step lib) s₀ as s) :
    Always (ScheduleStore.step lib) (fun s => s.db.SchedulesLawful) s₀ as ↔
      Each (ScheduleStore.step lib) CommitsOnSeen s₀ as := by
  refine always_lawful_iff (fun t tx htx => ?_) h₀.lawful hrun
  rw [h₀.transactions] at htx
  cases htx

/-- One schedule, active and with a next run. -/
def oneActive : ScheduleStore where
  db :=
    { Database.empty with
      schedules := Table.empty.set ⟨4, 0, "* * * * *", "UTC", true, some 0, none, 1, 0⟩ }
  transactions := .empty

theorem start_oneActive : oneActive.Start where
  transactions := rfl
  lawful := by
    intro row hrow
    obtain rfl : row = ⟨4, 0, "* * * * *", "UTC", true, some 0, none, 1, 0⟩ := List.mem_singleton.1 hrow
    rfl

/-- A PATCH that switches it off while another one changes its expression: both have
read the row before either is committed. -/
def patchedTwice : List ScheduleAction :=
  [.begin 0 (.update 4 ⟨none, none, some false⟩), .begin 1 (.update 4 ⟨some "0 * * * *", none, none⟩),
    .read 0 5 60, .read 1 5 60, .write 0 60, .commit 0 .ok, .write 1 61, .commit 1 .ok]

/-- The same one after the other. -/
def patchedInTurn : List ScheduleAction :=
  [.begin 0 (.update 4 ⟨none, none, some false⟩), .read 0 5 60, .write 0 60, .commit 0 .ok,
    .begin 1 (.update 4 ⟨some "0 * * * *", none, none⟩), .read 1 5 61, .write 1 61, .commit 1 .ok]

theorem schedules_lawful_patchedInTurn :
    Always (ScheduleStore.step plainLibraries) (fun s => s.db.SchedulesLawful) oneActive patchedInTurn ↔
      Each (ScheduleStore.step plainLibraries) CommitsOnSeen oneActive patchedInTurn :=
  schedules_lawful_iff plainLibraries oneActive _ patchedInTurn start_oneActive
    (run_final patchedInTurn (by rfl))

/-- The second PATCH leaves a next run to a schedule that is not active. -/
theorem not_schedules_lawful_patchedTwice :
    ¬ Always (ScheduleStore.step plainLibraries) (fun s => s.db.SchedulesLawful) oneActive patchedTwice := by
  intro h
  have hrun : Run (ScheduleStore.step plainLibraries) oneActive patchedTwice _ :=
    run_final patchedTwice (by rfl)
  have hlaw := h.last hrun ⟨4, 0, "0 * * * *", "UTC", false, some 3600000061, none, 1, 0⟩ (List.mem_singleton.2 rfl)
  cases hlaw

end ApiTesting
