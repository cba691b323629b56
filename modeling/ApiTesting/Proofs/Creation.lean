import ApiTesting.Proofs.Sessions
import ApiTesting.Spec.CronScheduler

/-! Creating a run: what `_create_run` adds to the session and what it sends, for every
way its calls to Redis can end. -/

namespace ApiTesting

open Keyed ServiceM Fallible

/-! The tasks of a run as a product of rows and requests. -/

/-- What a run is to have: a task for each request and row. -/
def wantedTasks (requests : List ApiRequest) (dataRows : Option (List (Dict String String))) :
    List (UUID × Option ℕ × Option (Dict String String)) :=
  match dataRows.getD [] with
  | [] => requests.map fun r => (r.id, none, none)
  | rows => (List.range rows.length).flatMap fun i => requests.map fun r => (r.id, some i, rows[i]?)

/-- Which request and row a task is for. -/
def TestTask.origin (t : TestTask) : UUID × Option ℕ × Option (Dict String String) :=
  (t.apiRequestId, t.dataRowIndex, t.dataContext)

theorem zipIdx_eq_range {α : Type} (l : List α) :
    (l.zipIdx.map fun p => (some p.2, some p.1)) = (List.range l.length).map fun i => (some i, l[i]?) := by
  refine List.ext_getElem (by simp) fun i hi _ => ?_
  simp only [List.length_map, List.length_zipIdx] at hi
  simp [List.getElem?_eq_getElem hi]

theorem rowsOf_eq (dataRows : Option (List (Dict String String))) :
    rowsOf dataRows =
      match dataRows.getD [] with
      | [] => [(none, none)]
      | rows => (List.range rows.length).map fun i => (some i, rows[i]?) := by
  match dataRows with
  | none => rfl
  | some [] => rfl
  | some (row :: rows) => exact zipIdx_eq_range (row :: rows)

theorem length_rowsOf (dataRows : Option (List (Dict String String))) :
    (rowsOf dataRows).length = max 1 (dataRows.getD []).length := by
  rw [rowsOf_eq]
  split
  · rename_i h
    rw [h]
    rfl
  · rename_i rows h
    have : 0 < (dataRows.getD []).length := List.length_pos_iff.2 h
    simp only [List.length_map, List.length_range]
    omega

theorem origin_pendingTasks (run : UUID) (requests : List ApiRequest)
    (dataRows : Option (List (Dict String String))) :
    (pendingTasks run requests (rowsOf dataRows)).map TestTask.origin = wantedTasks requests dataRows := by
  unfold pendingTasks wantedTasks
  rw [rowsOf_eq, List.map_flatMap]
  split
  · simp [TestTask.origin, Function.comp_def]
  · simp [List.flatMap_map, TestTask.origin, Function.comp_def]

theorem length_pendingTasks (run : UUID) (requests : List ApiRequest)
    (rows : List (Option ℕ × Option (Dict String String))) :
    (pendingTasks run requests rows).length = requests.length * rows.length := by
  simp [pendingTasks, List.length_flatMap, Nat.mul_comm]

theorem testRunId_of_mem_pendingTasks {run : UUID} {requests : List ApiRequest}
    {rows : List (Option ℕ × Option (Dict String String))} {t : TestTask}
    (h : t ∈ pendingTasks run requests rows) :
    t.testRunId = run ∧ ∃ r ∈ requests, t.apiRequestId = r.id := by
  obtain ⟨row, _, h⟩ := List.mem_flatMap.1 h
  obtain ⟨r, hr, rfl⟩ := List.mem_map.1 h
  exact ⟨rfl, r, hr, rfl⟩

/-! The ids of a bulk insert. -/

section
open TestTaskRepository

theorem map_assignIds {β : Type} {f : TestTask → β} (hf : ∀ (t : TestTask) i, f { t with id := i } = f t)
    (first : UUID) (tasks : List TestTask) : (assignIds first tasks).map f = tasks.map f := by
  unfold assignIds
  rw [List.map_map]
  refine List.ext_getElem (by simp) fun i hi _ => ?_
  simp [hf]

theorem ids_assignIds (first : UUID) (tasks : List TestTask) :
    (assignIds first tasks).map TestTask.id = List.range' first tasks.length := by
  refine List.ext_getElem (by simp [assignIds]) fun i hi _ => ?_
  simp [assignIds]

theorem length_assignIds (first : UUID) (tasks : List TestTask) :
    (assignIds first tasks).length = tasks.length := by
  simp [assignIds]

end

/-! The calls to Redis at the end of a creation. -/

/-- `count` calls from `start` on return, and the one after them takes effect. -/
def Reached (redis : ℕ → Call) : ℕ → ℕ → Prop
  | start, 0 => (redis start).tookEffect = true
  | start, count + 1 => (redis start).returned = true ∧ Reached redis (start + 1) count

/-- The ids that reach the stream where the first one raised ends the loop. -/
def sentFrom (redis : ℕ → Call) : ℕ → List UUID → List UUID
  | _, [] => []
  | start, id :: ids =>
    match redis start with
    | .ok => id :: sentFrom redis (start + 1) ids
    | .raisedBefore => []
    | .raisedAfter => [id]

theorem sentFrom_prefix (redis : ℕ → Call) (start : ℕ) (ids : List UUID) : sentFrom redis start ids <+: ids := by
  induction ids generalizing start with
  | nil => exact List.prefix_rfl
  | cons id ids ih =>
    rw [sentFrom]
    split
    · exact List.cons_prefix_cons.2 ⟨rfl, ih (start + 1)⟩
    · exact List.nil_prefix
    · exact List.cons_prefix_cons.2 ⟨rfl, List.nil_prefix⟩

/-- All ids are sent where the calls reach the last of them. -/
theorem sentFrom_eq_iff (redis : ℕ → Call) (start : ℕ) (id : UUID) (ids : List UUID) :
    sentFrom redis start (id :: ids) = id :: ids ↔ Reached redis start ids.length := by
  induction ids generalizing start id with
  | nil => cases h : redis start <;> simp [sentFrom, Reached, Call.tookEffect, h]
  | cons id' ids ih =>
    have := ih (start + 1) id'
    cases h : redis start <;>
      simp_all [sentFrom.eq_2 redis start, Reached, Call.returned]

/-- Two sessions that differ in what was sent only. -/
def SentOnly (s s' : Session) : Prop := s' = { s with stream := s'.stream, redisCalls := s'.redisCalls }

theorem SentOnly.trans {s s' s'' : Session} (h : SentOnly s s') (h' : SentOnly s' s'') : SentOnly s s'' := by
  unfold SentOnly at *
  rw [h] at h'
  exact h'

theorem callRedis_run (s : Session) (effect : Stream → Stream) :
    ∃ s', callRedis effect s = (if (s.redis s.redisCalls).returned then .ok () else .error callError, s') ∧
      SentOnly s s' ∧ s'.redisCalls = s.redisCalls + 1 ∧
      s'.stream = if (s.redis s.redisCalls).tookEffect then effect s.stream else s.stream :=
  ⟨_, rfl, rfl, rfl, rfl⟩

theorem forM_enqueue (tasks : List TestTask) (s : Session) :
    ∃ r s', (tasks.forM fun t => enqueue t.id) s = (r, s') ∧ SentOnly s s' ∧
      s'.stream.log = s.stream.log ++ sentFrom s.redis s.redisCalls (tasks.map TestTask.id) ∧
      (r = .ok () → sentFrom s.redis s.redisCalls (tasks.map TestTask.id) = tasks.map TestTask.id) ∧
      (sentFrom s.redis s.redisCalls (tasks.map TestTask.id) = tasks.map TestTask.id →
        s'.redisCalls = s.redisCalls + tasks.length) := by
  induction tasks generalizing s with
  | nil => exact ⟨_, s, rfl, rfl, by simp [sentFrom], fun _ => rfl, fun _ => rfl⟩
  | cons t tasks ih =>
    obtain ⟨s₁, hrun, hsent, hcalls, hstream⟩ := callRedis_run s fun st => st.enqueue t.id
    rw [List.map_cons, sentFrom]
    cases hcall : s.redis s.redisCalls with
    | ok =>
      simp only [hcall, Call.returned, Call.tookEffect, if_true] at hrun hstream
      have hredis : s₁.redis = s.redis := by rw [hsent]
      obtain ⟨r, s', hrest, hsent', hlog, hok, hlen⟩ := ih s₁
      rw [hredis, hcalls] at hlog hok hlen
      refine ⟨r, s', (bind_of_ok _ hrun).trans hrest, hsent.trans hsent', ?_, ?_, ?_⟩
      · rw [hlog, hstream]
        simp [Stream.enqueue]
      · intro hr
        rw [hok hr]
      · intro h
        rw [hlen (List.cons.inj h).2, List.length_cons]
        omega
    | raisedBefore =>
      simp only [hcall, Call.returned, Call.tookEffect, Bool.false_eq_true, if_false] at hrun hstream
      refine ⟨_, s₁, bind_of_error _ hrun, hsent, ?_, ?_, ?_⟩
      · rw [hstream, List.append_nil]
      · intro h
        cases h
      · intro h
        cases h
    | raisedAfter =>
      simp only [hcall, Call.returned, Call.tookEffect, Bool.false_eq_true, if_false, if_true] at hrun hstream
      refine ⟨_, s₁, bind_of_error _ hrun, hsent, ?_, ?_, ?_⟩
      · rw [hstream]
        rfl
      · intro h
        cases h
      · intro h
        have htasks : tasks = [] := by simpa using h.symm
        rw [hcalls, htasks]
        rfl

/-- `ensure_group` and then one `enqueue` a task. -/
theorem sendTasks_run (t : TestTask) (tasks : List TestTask) (s : Session) :
    ∃ r s' sent, TestRunService.sendTasks (t :: tasks) s = (r, s') ∧ SentOnly s s' ∧ s'.stream.log = s.stream.log ++ sent ∧ sent <+: (t :: tasks).map TestTask.id ∧
      (sent = (t :: tasks).map TestTask.id ↔ Reached s.redis s.redisCalls (tasks.length + 1)) ∧
      (r = .ok () → Reached s.redis s.redisCalls (tasks.length + 1)) ∧
      (Reached s.redis s.redisCalls (tasks.length + 1) →
        s'.redisCalls = s.redisCalls + (tasks.length + 2)) := by
  obtain ⟨s₁, hgroup, hsent₁, hcalls₁, hstream₁⟩ := callRedis_run s id
  have hstream₁ : s₁.stream = s.stream := by
    rw [hstream₁]
    split <;> rfl
  cases hcall : (s.redis s.redisCalls).returned with
  | false =>
    rw [hcall] at hgroup
    have hnot : ¬ Reached s.redis s.redisCalls (tasks.length + 1) := by
      intro h
      rw [h.1] at hcall
      cases hcall
    refine ⟨_, s₁, [], bind_of_error _ hgroup, hsent₁, ?_, List.nil_prefix, ?_, ?_, fun h => absurd h hnot⟩
    · rw [hstream₁, List.append_nil]
    · refine ⟨fun h => ?_, fun h => absurd h hnot⟩
      cases h
    · intro h
      cases h
  | true =>
    rw [hcall] at hgroup
    obtain ⟨r, s', hloop, hsent, hlog, hok, hlen⟩ := forM_enqueue (t :: tasks) s₁
    have hredis : s₁.redis = s.redis := by rw [hsent₁]
    rw [hredis, hcalls₁] at hlog hok hlen
    rw [hstream₁] at hlog
    have hiff : sentFrom s.redis (s.redisCalls + 1) ((t :: tasks).map TestTask.id) = (t :: tasks).map TestTask.id ↔
        Reached s.redis s.redisCalls (tasks.length + 1) := by
      have h := sentFrom_eq_iff s.redis (s.redisCalls + 1) t.id (tasks.map TestTask.id)
      rw [List.length_map] at h
      rw [List.map_cons, h, Reached]
      simp [hcall]
    refine ⟨r, s', _, (bind_of_ok _ hgroup).trans hloop, hsent₁.trans hsent, hlog, sentFrom_prefix _ _ _, hiff,
      fun h => hiff.1 (hok h), fun h => ?_⟩
    rw [hlen (hiff.2 h), List.length_cons]
    omega

/-! What a creation adds. -/

/-- Ids in use are below the next one, a task belongs to a run, and a schedule to a
collection and a user. -/
structure World.Sound (w : World) : Prop where
  runs : ∀ r ∈ w.db.testRuns.rows, r.id < w.nextId
  tasks : ∀ t ∈ w.db.testTasks.rows, t.id < w.nextId ∧ (w.db.testRuns.get? t.testRunId).isSome = true
  log : ∀ i ∈ w.stream.log, i < w.nextId
  schedules : ∀ sc ∈ w.db.schedules.rows,
    (w.db.collections.get? sc.collectionId).isSome = true ∧ (w.db.users.get? sc.createdBy).isSome = true

/-- What the session would leave if it were committed now. -/
def Session.view (s : Session) : World := ⟨s.db, s.stream, s.nextId⟩

theorem insert_run {db : Database} (run : TestRun)
    (hc : (db.collections.get? run.collectionId).isSome = true)
    (hu : (db.users.get? run.initiatedBy).isSome = true) (hid : run.id ∉ db.testRuns.keys) :
    ∃ db', TestRunRepository.insert db run = .ok db' ∧ db'.testRuns.rows = db.testRuns.rows ++ [run] ∧
      db' = { db with testRuns := db'.testRuns } := by
  unfold TestRunRepository.insert insertRow Table.insert?
  rw [hc, hu, dif_neg hid]
  exact ⟨_, rfl, rfl, rfl⟩

theorem insert_task {db : Database} {t : TestTask} (hr : (db.testRuns.get? t.testRunId).isSome = true)
    (hq : (db.apiRequests.get? t.apiRequestId).isSome = true) (hid : t.id ∉ db.testTasks.keys) :
    ∃ db', TestTaskRepository.insert db t = .ok db' ∧ db'.testTasks.rows = db.testTasks.rows ++ [t] ∧
      db' = { db with testTasks := db'.testTasks } := by
  unfold TestTaskRepository.insert insertRow Table.insert?
  rw [hr, hq, dif_neg hid]
  exact ⟨_, rfl, rfl, rfl⟩

theorem insert_tasks (tasks : List TestTask) {db : Database}
    (hr : ∀ t ∈ tasks, (db.testRuns.get? t.testRunId).isSome = true)
    (hq : ∀ t ∈ tasks, (db.apiRequests.get? t.apiRequestId).isSome = true)
    (hid : ∀ t ∈ tasks, t.id ∉ db.testTasks.keys) (hnd : (tasks.map TestTask.id).Nodup) :
    ∃ db', tasks.foldlM TestTaskRepository.insert db = .ok db' ∧
      db'.testTasks.rows = db.testTasks.rows ++ tasks ∧ db' = { db with testTasks := db'.testTasks } := by
  induction tasks generalizing db with
  | nil => exact ⟨db, rfl, (List.append_nil _).symm, rfl⟩
  | cons t tasks ih =>
    obtain ⟨db₁, h₁, hrows₁, hdb₁⟩ :=
      insert_task (hr t List.mem_cons_self) (hq t List.mem_cons_self) (hid t List.mem_cons_self)
    rw [List.map_cons, List.nodup_cons] at hnd
    have hkeys : ∀ q ∈ tasks, q.id ∉ db₁.testTasks.keys := by
      intro q hq' hmem
      rw [Table.keys, hrows₁, List.map_append, List.mem_append] at hmem
      rcases hmem with hmem | hmem
      · exact hid q (List.mem_cons_of_mem _ hq') hmem
      · rw [List.map_singleton, List.mem_singleton] at hmem
        exact hnd.1 (hmem ▸ List.mem_map_of_mem hq')
    obtain ⟨db', h', hrows', hdb'⟩ := ih
      (fun q hq' => by rw [hdb₁]; exact hr q (List.mem_cons_of_mem _ hq'))
      (fun q hq' => by rw [hdb₁]; exact hq q (List.mem_cons_of_mem _ hq')) hkeys hnd.2
    refine ⟨db', ?_, ?_, ?_⟩
    · rw [List.foldlM_cons, h₁]
      exact h'
    · rw [hrows', hrows₁, List.append_assoc, List.singleton_append]
    · rw [hdb₁] at hdb'
      exact hdb'

/-- The row `_create_run` adds. -/
def plannedRun (s : Session) (collectionId initiatedBy : UUID) (runType : TestRunType)
    (dataRows : Option (List (Dict String String))) (config : Dict String (Dict String String)) : TestRun where
  id := s.nextId
  collectionId := collectionId
  initiatedBy := initiatedBy
  status := .running
  runType := runType
  startedAt := some s.now
  completedAt := none
  totalTasks := (s.db.requestsOf collectionId).length * (rowsOf dataRows).length
  completedTasks := 0
  failedTasks := 0
  config := config
  createdAt := s.now

/-- The tasks it adds, under the ids that follow the run's. -/
def plannedTasks (s : Session) (collectionId : UUID) (dataRows : Option (List (Dict String String))) :
    List TestTask :=
  TestTaskRepository.assignIds (s.nextId + 1)
    (pendingTasks s.nextId (s.db.requestsOf collectionId) (rowsOf dataRows))

section
variable {s : Session} {collectionId initiatedBy : UUID} {runType : TestRunType}
  {dataRows : Option (List (Dict String String))}

theorem mem_plannedTasks {t : TestTask} (h : t ∈ plannedTasks s collectionId dataRows) :
    t.testRunId = s.nextId ∧ ∃ r ∈ s.db.requestsOf collectionId, t.apiRequestId = r.id := by
  obtain ⟨p, hp, rfl⟩ := List.mem_map.1 h
  obtain ⟨hrun, hrequest⟩ := testRunId_of_mem_pendingTasks (List.fst_mem_of_mem_zipIdx hp)
  exact ⟨hrun, hrequest⟩

theorem ids_plannedTasks :
    (plannedTasks s collectionId dataRows).map TestTask.id =
      List.range' (s.nextId + 1) (plannedTasks s collectionId dataRows).length := by
  rw [plannedTasks, ids_assignIds, length_assignIds]

theorem length_plannedTasks :
    (plannedTasks s collectionId dataRows).length =
      (s.db.requestsOf collectionId).length * (rowsOf dataRows).length := by
  rw [plannedTasks, length_assignIds, length_pendingTasks]

theorem plannedTasks_ne_nil (dataRows : Option (List (Dict String String)))
    (hreq : s.db.requestsOf collectionId ≠ []) :
    plannedTasks s collectionId dataRows ≠ [] := by
  rw [ne_eq, ← List.length_eq_zero_iff, length_plannedTasks, length_rowsOf]
  have hreq := List.length_pos_iff.2 hreq
  have hrows : 0 < max 1 (dataRows.getD []).length := by omega
  exact Nat.ne_of_gt (Nat.mul_pos hreq hrows)

theorem request_of_requestsOf {db : Database} {r : ApiRequest} (h : r ∈ db.requestsOf collectionId) :
    (db.apiRequests.get? r.id).isSome = true := by
  rw [Database.requestsOf, List.mem_insertionSort] at h
  rw [Table.get?_isSome_iff]
  exact List.mem_map_of_mem (List.mem_of_mem_filter h)

theorem planRun_empty (hs : s.failed = false) (hreq : s.db.requestsOf collectionId = []) :
    TestRunService.planRun collectionId initiatedBy runType dataRows s =
      (.error AppError.collectionHasNoRequests.toExn, s) := by
  unfold TestRunService.planRun ApiRequestRepository.listByCollection
  rw [bind_of_ok _ (query_run hs _), if_pos hreq]
  rfl

theorem planRun_no_collection (initiatedBy : UUID) (runType : TestRunType)
    (dataRows : Option (List (Dict String String))) (hs : s.failed = false) (hreq : s.db.requestsOf collectionId ≠ [])
    (hc : s.db.collections.get? collectionId = none) :
    ∃ exc, TestRunService.planRun collectionId initiatedBy runType dataRows s = (.error exc, s) := by
  unfold TestRunService.planRun ApiRequestRepository.listByCollection CollectionRepository.getById
  rw [bind_of_ok _ (query_run hs _), if_neg hreq]
  dsimp only
  rw [bind_of_ok _ (query_run hs _), hc]
  exact ⟨_, rfl⟩

/-- What is left to do once the rows are known. -/
def insertPlan (run : TestRun) (tasks : List TestTask) : ServiceM (TestRun × List TestTask) := do
  flush fun db => TestRunRepository.insert db run
  let createdTasks ← TestTaskRepository.bulkCreate tasks
  return (run, createdTasks)

theorem planRun_eq {c : Collection} (initiatedBy : UUID) (runType : TestRunType)
    (dataRows : Option (List (Dict String String))) (hs : s.failed = false) (hreq : s.db.requestsOf collectionId ≠ [])
    (hc : s.db.collections.get? collectionId = some c) :
    ∃ config, TestRunService.planRun collectionId initiatedBy runType dataRows s =
      insertPlan (plannedRun s collectionId initiatedBy runType dataRows config)
        (pendingTasks s.nextId (s.db.requestsOf collectionId) (rowsOf dataRows))
        { s with nextId := s.nextId + 1 } := by
  unfold TestRunService.planRun ApiRequestRepository.listByCollection CollectionRepository.getById
  rw [bind_of_ok _ (query_run hs _), if_neg hreq]
  dsimp only
  rw [bind_of_ok _ (query_run hs _), hc]
  unfold TestRunService.projectIdOf EnvironmentVariableRepository.listByProject TestRunRepository.create
  rw [pure_bind, bind_of_ok _ (query_run hs _), bind_of_ok _ now_run]
  simp only [bind_assoc, pure_bind]
  rw [generateUuid7, bind_of_ok _ (generateIds_run 1), bind_of_ok _ now_run]
  exact ⟨_, rfl⟩

theorem insertPlan_run {run : TestRun} {pending : List TestTask} {db₁ db₂ : Database}
    (hs : s.failed = false) (h₁ : TestRunRepository.insert s.db run = .ok db₁)
    (h₂ : (TestTaskRepository.assignIds s.nextId pending).foldlM TestTaskRepository.insert db₁ = .ok db₂) :
    insertPlan run pending s =
      (.ok (run, TestTaskRepository.assignIds s.nextId pending),
        { s with db := db₂, nextId := s.nextId + pending.length }) := by
  unfold insertPlan TestTaskRepository.bulkCreate
  rw [bind_of_ok _ (flush_run hs h₁)]
  simp only [bind_assoc, pure_bind]
  rw [bind_of_ok _ (generateIds_run _)]
  exact bind_of_ok _ (flush_run (s := { s with db := db₁, nextId := s.nextId + pending.length }) hs h₂)

theorem planRun_no_user {c : Collection} (runType : TestRunType)
    (dataRows : Option (List (Dict String String))) (hs : s.failed = false) (hreq : s.db.requestsOf collectionId ≠ [])
    (hc : s.db.collections.get? collectionId = some c) (hu : s.db.users.get? initiatedBy = none) :
    ∃ exc, TestRunService.planRun collectionId initiatedBy runType dataRows s =
      (.error exc, { s with nextId := s.nextId + 1, failed := true }) := by
  obtain ⟨config, hplan⟩ := planRun_eq initiatedBy runType dataRows hs hreq hc
  have hinsert : TestRunRepository.insert s.db (plannedRun s collectionId initiatedBy runType dataRows config) =
      .error integrityError := by
    unfold TestRunRepository.insert plannedRun require
    simp only [hu, Option.isSome_none, Bool.and_false, Bool.false_eq_true, if_false]
    rfl
  rw [hplan, insertPlan]
  exact ⟨_, bind_of_error _ (flush_raise (s := { s with nextId := s.nextId + 1 }) hs hinsert)⟩

/-- What the rows of a creation add to a session. -/
structure Planned (s s' : Session) (run : TestRun) (tasks : List TestTask) : Prop where
  rest : s' = { s with db := s'.db, nextId := s'.nextId }
  tables : s'.db = { s.db with testRuns := s'.db.testRuns, testTasks := s'.db.testTasks }
  runRows : s'.db.testRuns.rows = s.db.testRuns.rows ++ [run]
  taskRows : s'.db.testTasks.rows = s.db.testTasks.rows ++ tasks
  runId : run.id = s.nextId
  taskIds : tasks.map TestTask.id = List.range' (s.nextId + 1) tasks.length
  taskRuns : ∀ t ∈ tasks, t.testRunId = s.nextId
  requests : ∀ t ∈ tasks, (s.db.apiRequests.get? t.apiRequestId).isSome = true
  nextId : s'.nextId = s.nextId + 1 + tasks.length

/-- The new rows violate nothing. -/
theorem planRun_run {c : Collection} (runType : TestRunType) (dataRows : Option (List (Dict String String)))
    (hs : s.failed = false) (hruns : ∀ r ∈ s.db.testRuns.rows, r.id < s.nextId)
    (htasks : ∀ t ∈ s.db.testTasks.rows, t.id < s.nextId) (hreq : s.db.requestsOf collectionId ≠ [])
    (hc : s.db.collections.get? collectionId = some c) (hu : (s.db.users.get? initiatedBy).isSome = true) :
    ∃ config s', TestRunService.planRun collectionId initiatedBy runType dataRows s =
        (.ok (plannedRun s collectionId initiatedBy runType dataRows config,
          plannedTasks s collectionId dataRows), s') ∧
      Planned s s' (plannedRun s collectionId initiatedBy runType dataRows config)
        (plannedTasks s collectionId dataRows) := by
  obtain ⟨config, hplan⟩ := planRun_eq initiatedBy runType dataRows hs hreq hc
  have hfresh : s.nextId ∉ s.db.testRuns.keys := by
    intro h
    obtain ⟨q, hq, hid⟩ := List.mem_map.1 h
    exact absurd (hid ▸ hruns q hq) (Nat.lt_irrefl _)
  have hcollection : (s.db.collections.get? collectionId).isSome = true := by
    rw [hc]
    rfl
  obtain ⟨db₁, h₁, hruns₁, hdb₁⟩ := insert_run
    (plannedRun s collectionId initiatedBy runType dataRows config) hcollection hu hfresh
  have hrun : ∀ t ∈ plannedTasks s collectionId dataRows, (db₁.testRuns.get? t.testRunId).isSome = true := by
    intro t ht
    rw [(mem_plannedTasks ht).1, Table.get?_isSome_iff, Table.keys, hruns₁, List.map_append]
    exact List.mem_append_right _ List.mem_cons_self
  have hrequest : ∀ t ∈ plannedTasks s collectionId dataRows,
      (s.db.apiRequests.get? t.apiRequestId).isSome = true := by
    intro t ht
    obtain ⟨q, hq, hid⟩ := (mem_plannedTasks ht).2
    rw [hid]
    exact request_of_requestsOf hq
  have hid : ∀ t ∈ plannedTasks s collectionId dataRows, t.id ∉ db₁.testTasks.keys := by
    intro t ht hmem
    rw [hdb₁] at hmem
    obtain ⟨q, hq, hid⟩ := List.mem_map.1 hmem
    have hlt : t.id < s.nextId := hid ▸ htasks q hq
    have ht : t.id ∈ (plannedTasks s collectionId dataRows).map TestTask.id := List.mem_map_of_mem ht
    rw [ids_plannedTasks, List.mem_range'_1] at ht
    exact absurd (Nat.lt_of_lt_of_le hlt (Nat.le_of_succ_le ht.1)) (Nat.lt_irrefl _)
  have hnd : ((plannedTasks s collectionId dataRows).map TestTask.id).Nodup := by
    rw [ids_plannedTasks]
    exact List.nodup_range'
  obtain ⟨db₂, h₂, htasks₂, hdb₂⟩ := insert_tasks _ hrun (by rw [hdb₁]; exact hrequest) hid hnd
  have hlen : (pendingTasks s.nextId (s.db.requestsOf collectionId) (rowsOf dataRows)).length =
      (plannedTasks s collectionId dataRows).length := (length_assignIds _ _).symm
  rw [hdb₁] at hdb₂ htasks₂
  refine ⟨config, _, hplan.trans (insertPlan_run (s := { s with nextId := s.nextId + 1 }) hs h₁ h₂), ?_⟩
  rw [hlen]
  exact
    { rest := rfl
      tables := by rw [hdb₂]
      runRows := by rw [hdb₂]; exact hruns₁
      taskRows := htasks₂
      runId := rfl
      taskIds := ids_plannedTasks
      taskRuns := fun t ht => (mem_plannedTasks ht).1
      requests := hrequest
      nextId := rfl }

/-- Where it returns, it had requests, a collection and a user to go by. -/
theorem planRun_ok {s' : Session} {planned : TestRun × List TestTask} (hs : s.failed = false)
    (h : TestRunService.planRun collectionId initiatedBy runType dataRows s = (.ok planned, s')) :
    s.db.requestsOf collectionId ≠ [] ∧ (∃ c, s.db.collections.get? collectionId = some c) ∧
      (s.db.users.get? initiatedBy).isSome = true := by
  have hreq : s.db.requestsOf collectionId ≠ [] := by
    intro hreq
    rw [planRun_empty hs hreq] at h
    cases h
  rcases hc : s.db.collections.get? collectionId with _ | c
  · obtain ⟨exc, hraise⟩ := planRun_no_collection initiatedBy runType dataRows hs hreq hc
    rw [hraise] at h
    cases h
  · rcases hu : s.db.users.get? initiatedBy with _ | u
    · obtain ⟨exc, hraise⟩ := planRun_no_user runType dataRows hs hreq hc hu
      rw [hraise] at h
      cases h
    · exact ⟨hreq, ⟨c, rfl⟩, rfl⟩

/-- Ids are handed out and not taken back. -/
theorem planRun_nextId_le (hs : s.failed = false) {exc : Exn} {s' : Session}
    (h : TestRunService.planRun collectionId initiatedBy runType dataRows s = (.error exc, s'))
    (hruns : ∀ r ∈ s.db.testRuns.rows, r.id < s.nextId) (htasks : ∀ t ∈ s.db.testTasks.rows, t.id < s.nextId) :
    s.nextId ≤ s'.nextId := by
  by_cases hreq : s.db.requestsOf collectionId = []
  · rw [planRun_empty hs hreq] at h
    rw [← (Prod.mk.inj h).2]
  · rcases hc : s.db.collections.get? collectionId with _ | c
    · obtain ⟨exc, hraise⟩ := planRun_no_collection initiatedBy runType dataRows hs hreq hc
      rw [hraise] at h
      rw [← (Prod.mk.inj h).2]
    · rcases hu : s.db.users.get? initiatedBy with _ | u
      · obtain ⟨exc, hraise⟩ := planRun_no_user runType dataRows hs hreq hc hu
        rw [hraise] at h
        rw [← (Prod.mk.inj h).2]
        exact Nat.le_succ _
      · obtain ⟨config, s₁, hrun, -⟩ := planRun_run runType dataRows hs hruns htasks
          hreq hc (by rw [hu]; rfl)
        rw [hrun] at h
        cases (Prod.mk.inj h).1

/-! And what it sends. -/

structure Creation (s s' : Session) (run : TestRun) (tasks : List TestTask) (sent : List UUID) : Prop where
  rest : s' = { s with db := s'.db, stream := s'.stream, nextId := s'.nextId, redisCalls := s'.redisCalls }
  tables : s'.db = { s.db with testRuns := s'.db.testRuns, testTasks := s'.db.testTasks }
  runRows : s'.db.testRuns.rows = s.db.testRuns.rows ++ [run]
  taskRows : s'.db.testTasks.rows = s.db.testTasks.rows ++ tasks
  log : s'.stream.log = s.stream.log ++ sent
  inOrder : sent <+: tasks.map TestTask.id
  runId : run.id = s.nextId
  taskIds : tasks.map TestTask.id = List.range' (s.nextId + 1) tasks.length
  taskRuns : ∀ t ∈ tasks, t.testRunId = s.nextId
  nextId : s'.nextId = s.nextId + 1 + tasks.length

theorem createRunFor_empty (hs : s.failed = false) (hreq : s.db.requestsOf collectionId = []) :
    TestRunService.createRunFor collectionId initiatedBy runType dataRows s =
      (.error AppError.collectionHasNoRequests.toExn, s) := bind_of_error _ (planRun_empty hs hreq)

theorem createRunFor_ok {s' : Session} {run : TestRun} (hs : s.failed = false)
    (h : TestRunService.createRunFor collectionId initiatedBy runType dataRows s = (.ok run, s')) :
    s.db.requestsOf collectionId ≠ [] ∧ (∃ c, s.db.collections.get? collectionId = some c) ∧
      (s.db.users.get? initiatedBy).isSome = true := by
  obtain ⟨planned, s₁, hplan, -⟩ := ok_of_bind h
  exact planRun_ok hs hplan

/-- A creation for a collection that has requests: the rows are there in any case, and
the tasks are all sent exactly where the calls to Redis get that far. -/
theorem createRunFor_run {c : Collection} (runType : TestRunType)
    (dataRows : Option (List (Dict String String))) (hs : s.failed = false) (hsound : s.view.Sound)
    (hreq : s.db.requestsOf collectionId ≠ []) (hc : s.db.collections.get? collectionId = some c)
    (hu : (s.db.users.get? initiatedBy).isSome = true) :
    ∃ r s' config sent,
      TestRunService.createRunFor collectionId initiatedBy runType dataRows s = (r, s') ∧
      Creation s s' (plannedRun s collectionId initiatedBy runType dataRows config)
        (plannedTasks s collectionId dataRows) sent ∧
      (sent = (plannedTasks s collectionId dataRows).map TestTask.id ↔
        Reached s.redis s.redisCalls (plannedTasks s collectionId dataRows).length) ∧
      (∀ a, r = .ok a → a = plannedRun s collectionId initiatedBy runType dataRows config ∧
        Reached s.redis s.redisCalls (plannedTasks s collectionId dataRows).length) ∧
      (Reached s.redis s.redisCalls (plannedTasks s collectionId dataRows).length →
        s'.redisCalls = s.redisCalls + ((plannedTasks s collectionId dataRows).length + 1)) := by
  obtain ⟨config, s₁, hplan, hplanned⟩ := planRun_run runType dataRows hs
    hsound.runs (fun t ht => (hsound.tasks t ht).1) hreq hc hu
  obtain ⟨t, ts, hts⟩ := List.exists_cons_of_ne_nil (plannedTasks_ne_nil dataRows hreq)
  obtain ⟨r, s', sent, hsend, honly, hlog, hprefix, hiff, hok, hcalls⟩ := sendTasks_run t ts s₁
  have hredis : s₁.redis = s.redis := by rw [hplanned.rest]
  have hstart : s₁.redisCalls = s.redisCalls := by rw [hplanned.rest]
  have hcount : ts.length + 1 = (plannedTasks s collectionId dataRows).length := by
    rw [hts]
    rfl
  rw [← hts] at hsend hprefix hiff
  rw [hredis, hstart, hcount] at hiff hok
  refine ⟨_, s', config, sent, (bind_of_ok _ hplan).trans (bind_return hsend _), ?_, hiff, ?_, ?_⟩
  · have hdb : s'.db = s₁.db := by rw [honly]
    have hid : s'.nextId = s₁.nextId := by rw [honly]
    have hstream : s₁.stream = s.stream := by rw [hplanned.rest]
    exact
      { rest := by rw [honly, hplanned.rest]
        tables := by rw [hdb]; exact hplanned.tables
        runRows := by rw [hdb]; exact hplanned.runRows
        taskRows := by rw [hdb]; exact hplanned.taskRows
        log := by rw [hlog, hstream]
        inOrder := hprefix
        runId := hplanned.runId
        taskIds := hplanned.taskIds
        taskRuns := hplanned.taskRuns
        nextId := by rw [hid]; exact hplanned.nextId }
  · intro a ha
    cases r with
    | ok u =>
      cases ha
      exact ⟨rfl, hok rfl⟩
    | error exc => cases ha
  · intro h
    rw [hredis, hstart, hcount] at hcalls
    rw [hcalls h, ← hcount]

/-! None of it is committed by the service itself. -/

theorem uncommitted_createRun_row (run : TestRun) : Uncommitted (TestRunRepository.create run) :=
  (uncommitted_generateIds 1).bind fun _ => readOnly_now.uncommitted.bind fun _ =>
    (uncommitted_flush _).bind fun _ => keeps_pure _

theorem uncommitted_bulkCreate (tasks : List TestTask) : Uncommitted (TestTaskRepository.bulkCreate tasks) :=
  (uncommitted_generateIds _).bind fun _ => (uncommitted_flush _).bind fun _ => keeps_pure _

theorem uncommitted_planRun :
    Uncommitted (TestRunService.planRun collectionId initiatedBy runType dataRows) := by
  unfold TestRunService.planRun
  refine (readOnly_query _).uncommitted.bind fun requests => ?_
  split
  · exact keeps_throw _
  · refine (readOnly_query _).uncommitted.bind fun collection => ?_
    refine Keeps.bind ?_ fun projectId => ?_
    · cases collection with
      | none => exact keeps_throw _
      | some c => exact keeps_pure c.projectId
    · refine (readOnly_query _).uncommitted.bind fun defined => readOnly_now.uncommitted.bind fun startedAt => ?_
      exact (uncommitted_createRun_row _).bind fun run => (uncommitted_bulkCreate _).bind fun created =>
        keeps_pure (run, created)

theorem uncommitted_createRunFor :
    Uncommitted (TestRunService.createRunFor collectionId initiatedBy runType dataRows) :=
  uncommitted_planRun.bind fun planned =>
    ((uncommitted_callRedis _).bind fun _ =>
      keeps_forM (fun _ => uncommitted_callRedis _) planned.2).bind fun _ => keeps_pure planned.1

end

theorem uncommitted_createRun (user : User) (collectionId : UUID)
    (dataRows : Option (List (Dict String String))) :
    Uncommitted (TestRunService.createRun user collectionId dataRows) :=
  (readOnly_organizationIdForCollection _ _).uncommitted.bind fun _ =>
    (readOnly_requireMembership _ _ _ _).uncommitted.bind fun _ => uncommitted_createRunFor

/-- Past the checks, a request creates its run in the session it began with. -/
theorem createRun_ok {user : User} {collectionId : UUID} {dataRows : Option (List (Dict String String))}
    {s s' : Session} {run : TestRun}
    (h : TestRunService.createRun user collectionId dataRows s = (.ok run, s')) :
    TestRunService.createRunFor collectionId user.id .manual dataRows s = (.ok run, s') := by
  obtain ⟨organizationId, s₁, h₁, h⟩ := ok_of_bind h
  obtain ⟨membership, s₂, h₂, h⟩ := ok_of_bind h
  have hs₁ : s₁ = s := by
    have := readOnly_organizationIdForCollection collectionId .collectionNotFound s
    rwa [h₁] at this
  have hs₂ : s₂ = s₁ := by
    have := readOnly_requireMembership organizationId user.id none .collectionNotFound s₁
    rwa [h₂] at this
  rw [hs₂, hs₁] at h
  exact h

end ApiTesting
