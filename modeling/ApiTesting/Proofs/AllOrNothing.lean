import ApiTesting.Proofs.Creation
import ApiTesting.Proofs.Launch

/-! What is there of a run once the transaction that created it has ended. A request
rolls back whatever raised, so it leaves all of a run or nothing; a sweep swallows
what a creation raised and goes on to commit its rows. -/

namespace ApiTesting

open Keyed ServiceM Fallible

/-- A task for each request and row, each enqueued once, and the total to go with them. -/
structure World.Complete (w : World) (run : TestRun) (requests : List ApiRequest)
    (dataRows : Option (List (Dict String String))) : Prop where
  totalTasks : run.totalTasks = requests.length * max 1 (dataRows.getD []).length
  tasks : ((w.db.testTasks.rows.filter fun t => t.testRunId = run.id).map TestTask.origin).Perm
    (wantedTasks requests dataRows)
  enqueued : ∀ t ∈ w.db.testTasks.rows, t.testRunId = run.id → w.stream.log.count t.id = 1

/-- No row of the run is there. -/
def World.Absent (w : World) (runId : UUID) : Prop :=
  w.db.testRuns.get? runId = none ∧ ∀ t ∈ w.db.testTasks.rows, t.testRunId ≠ runId

/-- Whatever run was not there in `w` is not there in `w'` or is there completely. -/
def AllOrNothing (w w' : World) (dataRows : Option (List (Dict String String))) : Prop :=
  ∀ runId, w.db.testRuns.get? runId = none →
    w'.Absent runId ∨ ∃ run, w'.db.testRuns.get? runId = some run ∧
      w'.Complete run (w.db.requestsOf run.collectionId) dataRows

/-- A run that was not there in `w` has a task in `w'` that nobody was told about. -/
def Broken (w w' : World) : Prop :=
  ∃ run t, w.db.testRuns.get? run.id = none ∧ run ∈ w'.db.testRuns.rows ∧
    t ∈ w'.db.testTasks.rows ∧ t.testRunId = run.id ∧ t.id ∉ w'.stream.log

section
variable {w w' : World} {dataRows : Option (List (Dict String String))}

theorem Broken.not_allOrNothing (h : Broken w w') : ¬ AllOrNothing w w' dataRows := by
  obtain ⟨run, t, hnew, hrun, ht, htr, hlog⟩ := h
  intro hall
  rcases hall run.id hnew with habsent | ⟨run', hrun', hcomplete⟩
  · exact habsent.2 t ht htr
  · have hid : run'.id = run.id := (Table.get?_eq_some_iff.1 hrun').2
    have hcount := hcomplete.enqueued t ht (htr.trans hid.symm)
    rw [List.count_eq_zero_of_not_mem hlog] at hcount
    cases hcount

theorem allOrNothing_of_db (hw : w.Sound) (h : w'.db = w.db) : AllOrNothing w w' dataRows := by
  intro runId hnew
  refine .inl ⟨by rw [h]; exact hnew, fun t ht htr => ?_⟩
  rw [h] at ht
  have := (hw.tasks t ht).2
  rw [htr, hnew] at this
  cases this

/-- It is a matter of the runs, the tasks and the stream alone. -/
theorem AllOrNothing.congr {v : World} (h : AllOrNothing w w' dataRows)
    (hruns : v.db.testRuns = w'.db.testRuns) (htasks : v.db.testTasks = w'.db.testTasks)
    (hstream : v.stream = w'.stream) : AllOrNothing w v dataRows := by
  intro runId hnew
  unfold World.Absent
  rw [hruns, htasks]
  refine (h runId hnew).imp_right ?_
  rintro ⟨run, hrun, hc⟩
  exact ⟨run, hrun, hc.totalTasks, by rw [htasks]; exact hc.tasks, by rw [htasks, hstream]; exact hc.enqueued⟩

/-! What a creation makes of the runs that are there. -/

variable {s s' : Session} {run : TestRun} {tasks : List TestTask} {sent : List UUID}

theorem Creation.id_of_mem (h : Creation s s' run tasks sent) {i : UUID} (hi : i ∈ tasks.map TestTask.id) :
    s.nextId < i ∧ i < s'.nextId := by
  rw [h.taskIds, List.mem_range'_1] at hi
  exact ⟨hi.1, h.nextId ▸ hi.2⟩

theorem Creation.nextId_lt (h : Creation s s' run tasks sent) : s.nextId < s'.nextId := by
  rw [h.nextId]
  exact Nat.lt_of_lt_of_le (Nat.lt_succ_self _) (Nat.le_add_right _ _)

theorem Creation.get?_run (h : Creation s s' run tasks sent) (id : UUID) (hid : id ≠ s.nextId) :
    s'.db.testRuns.get? id = s.db.testRuns.get? id := by
  have hne : ¬ run.id = id := fun he => hid (he ▸ h.runId)
  simp [Table.get?, h.runRows, List.find?_append, hne]

theorem Creation.sound (h : Creation s s' run tasks sent) (hs : s.view.Sound) : s'.view.Sound where
  runs := by
    intro r hr
    change r ∈ s'.db.testRuns.rows at hr
    rw [h.runRows, List.mem_append, List.mem_singleton] at hr
    rcases hr with hr | rfl
    · exact (hs.runs r hr).trans h.nextId_lt
    · rw [h.runId]
      exact h.nextId_lt
  tasks := by
    intro t ht
    change t ∈ s'.db.testTasks.rows at ht
    change t.id < s'.nextId ∧ (s'.db.testRuns.get? t.testRunId).isSome = true
    rw [h.taskRows, List.mem_append] at ht
    rw [Table.get?_isSome_iff, Table.keys, h.runRows, List.map_append, List.mem_append]
    rcases ht with ht | ht
    · have := hs.tasks t ht
      exact ⟨this.1.trans h.nextId_lt, .inl (Table.get?_isSome_iff.1 this.2)⟩
    · refine ⟨(h.id_of_mem (List.mem_map_of_mem ht)).2, .inr ?_⟩
      rw [h.taskRuns t ht, ← h.runId]
      exact List.mem_cons_self
  log := by
    intro i hi
    change i ∈ s'.stream.log at hi
    rw [h.log, List.mem_append] at hi
    rcases hi with hi | hi
    · exact (hs.log i hi).trans h.nextId_lt
    · exact (h.id_of_mem (h.inOrder.subset hi)).2
  schedules := by
    intro sc hsc
    change sc ∈ s'.db.schedules.rows at hsc
    change (s'.db.collections.get? _).isSome = true ∧ (s'.db.users.get? _).isSome = true
    rw [h.tables] at hsc ⊢
    exact hs.schedules sc hsc

/-- The tasks of the new run are the new tasks. -/
theorem Creation.filter_new (h : Creation s s' run tasks sent) (hs : s.view.Sound) :
    (s'.db.testTasks.rows.filter fun t => t.testRunId = run.id) = tasks := by
  have hold : (s.db.testTasks.rows.filter fun t => t.testRunId = run.id) = [] := by
    rw [List.filter_eq_nil_iff]
    intro t ht htr
    obtain ⟨r, hr⟩ := Option.isSome_iff_exists.1 (hs.tasks t ht).2
    have hrow := Table.get?_eq_some_iff.1 hr
    have hlt := hs.runs r hrow.1
    rw [hrow.2, of_decide_eq_true htr, h.runId] at hlt
    exact Nat.lt_irrefl _ hlt
  have hnew : (tasks.filter fun t => t.testRunId = run.id) = tasks := by
    rw [List.filter_eq_self]
    intro t ht
    rw [h.taskRuns t ht, h.runId]
    exact decide_eq_true rfl
  rw [h.taskRows, List.filter_append, hold, hnew, List.nil_append]

/-- The tasks of the other runs are those they had. -/
theorem Creation.filter_old (h : Creation s s' run tasks sent) {id : UUID} (hid : id ≠ s.nextId) :
    (s'.db.testTasks.rows.filter fun t => t.testRunId = id) =
      s.db.testTasks.rows.filter fun t => t.testRunId = id := by
  have hnew : (tasks.filter fun t => t.testRunId = id) = [] := by
    rw [List.filter_eq_nil_iff]
    intro t ht htr
    rw [h.taskRuns t ht] at htr
    exact hid (of_decide_eq_true htr).symm
  rw [h.taskRows, List.filter_append, hnew, List.append_nil]

/-- How often an id was enqueued, where it is not one of the new ones. -/
theorem Creation.count_log_old (h : Creation s s' run tasks sent) {i : UUID} (hi : i < s.nextId) :
    s'.stream.log.count i = s.stream.log.count i := by
  have hnot : i ∉ sent := fun hmem =>
    absurd (hi.trans (h.id_of_mem (h.inOrder.subset hmem)).1) (Nat.lt_irrefl _)
  rw [h.log, List.count_append, List.count_eq_zero_of_not_mem hnot, Nat.add_zero]

theorem Creation.complete_new (h : Creation s s' run tasks sent) (hs : s.view.Sound)
    (hsent : sent = tasks.map TestTask.id) {requests : List ApiRequest}
    (htotal : run.totalTasks = requests.length * max 1 (dataRows.getD []).length)
    (horigin : tasks.map TestTask.origin = wantedTasks requests dataRows) :
    s'.view.Complete run requests dataRows where
  totalTasks := htotal
  tasks := by
    change ((s'.db.testTasks.rows.filter fun t => t.testRunId = run.id).map _).Perm _
    rw [h.filter_new hs, horigin]
  enqueued := by
    intro t ht htr
    have ht : t ∈ s'.db.testTasks.rows.filter fun t => t.testRunId = run.id :=
      List.mem_filter.2 ⟨ht, decide_eq_true htr⟩
    rw [h.filter_new hs] at ht
    have hid : t.id ∈ tasks.map TestTask.id := List.mem_map_of_mem ht
    have hold : t.id ∉ s.stream.log := fun hmem =>
      absurd ((hs.log _ hmem).trans (h.id_of_mem hid).1) (Nat.lt_irrefl _)
    have hnd : (tasks.map TestTask.id).Nodup := by
      rw [h.taskIds]
      exact List.nodup_range'
    change s'.stream.log.count t.id = 1
    rw [h.log, hsent, List.count_append, List.count_eq_zero_of_not_mem hold, Nat.zero_add]
    exact List.count_eq_one_of_mem hnd hid

theorem Creation.complete_old (h : Creation s s' run tasks sent) (hs : s.view.Sound) {run' : TestRun}
    (hid : run'.id ≠ s.nextId) {requests : List ApiRequest} (hc : s.view.Complete run' requests dataRows) :
    s'.view.Complete run' requests dataRows where
  totalTasks := hc.totalTasks
  tasks := by
    change ((s'.db.testTasks.rows.filter fun t => t.testRunId = run'.id).map _).Perm _
    rw [h.filter_old hid]
    exact hc.tasks
  enqueued := by
    intro t ht htr
    have ht : t ∈ s'.db.testTasks.rows.filter fun t => t.testRunId = run'.id :=
      List.mem_filter.2 ⟨ht, decide_eq_true htr⟩
    rw [h.filter_old hid, List.mem_filter] at ht
    change s'.stream.log.count t.id = 1
    rw [h.count_log_old (hs.tasks t ht.1).1]
    exact hc.enqueued t ht.1 htr

/-- A creation that sent all its tasks keeps the runs since `w` complete. -/
theorem Creation.allOrNothing (h : Creation s s' run tasks sent) (hs : s.view.Sound)
    (hsent : sent = tasks.map TestTask.id)
    (htotal : run.totalTasks =
      (w.db.requestsOf run.collectionId).length * max 1 (dataRows.getD []).length)
    (horigin : tasks.map TestTask.origin = wantedTasks (w.db.requestsOf run.collectionId) dataRows)
    (hw : AllOrNothing w s.view dataRows) : AllOrNothing w s'.view dataRows := by
  intro runId hnew
  by_cases hid : runId = s.nextId
  · refine .inr ⟨run, ?_, h.complete_new hs hsent htotal horigin⟩
    refine Table.get?_eq_some_iff.2 ⟨?_, h.runId.trans hid.symm⟩
    change run ∈ s'.db.testRuns.rows
    rw [h.runRows]
    exact List.mem_append_right _ List.mem_cons_self
  · rcases hw runId hnew with ⟨habsent, htasks⟩ | ⟨run', hrun', hcomplete⟩
    · refine .inl ⟨(h.get?_run runId hid).trans habsent, fun t ht htr => ?_⟩
      have ht : t ∈ s'.db.testTasks.rows.filter fun t => t.testRunId = runId :=
        List.mem_filter.2 ⟨ht, decide_eq_true htr⟩
      rw [h.filter_old hid, List.mem_filter] at ht
      exact htasks t ht.1 htr
    · have hid' : run'.id ≠ s.nextId := by
        rw [(Table.get?_eq_some_iff.1 hrun').2]
        exact hid
      exact .inr ⟨run', (h.get?_run runId hid).trans hrun', h.complete_old hs hid' hcomplete⟩

/-- A creation that did not send all its tasks leaves one behind. -/
theorem Creation.broken (h : Creation s s' run tasks sent) (hs : s.view.Sound) (hw : w.Sound)
    (hle : w.nextId ≤ s.nextId) (hsent : sent ≠ tasks.map TestTask.id) : Broken w s'.view := by
  obtain ⟨rest, hrest⟩ := h.inOrder
  have hne : rest ≠ [] := by
    rintro rfl
    exact hsent (by rw [← hrest, List.append_nil])
  obtain ⟨i, rest, rfl⟩ := List.exists_cons_of_ne_nil hne
  have hi : i ∈ tasks.map TestTask.id := by
    rw [← hrest]
    exact List.mem_append_right _ List.mem_cons_self
  have hnd : (tasks.map TestTask.id).Nodup := by
    rw [h.taskIds]
    exact List.nodup_range'
  rw [← hrest, List.nodup_append] at hnd
  obtain ⟨t, ht, hti⟩ := List.mem_map.1 hi
  refine ⟨run, t, ?_, ?_, ?_, (h.taskRuns t ht).trans h.runId.symm, ?_⟩
  · rw [Table.get?_eq_none_iff, h.runId]
    intro hmem
    obtain ⟨r, hr, hid⟩ := List.mem_map.1 hmem
    exact absurd (Nat.lt_of_lt_of_le (hid ▸ hw.runs r hr) hle) (Nat.lt_irrefl _)
  · change run ∈ s'.db.testRuns.rows
    rw [h.runRows]
    exact List.mem_append_right _ List.mem_cons_self
  · change t ∈ s'.db.testTasks.rows
    rw [h.taskRows]
    exact List.mem_append_right _ ht
  · change t.id ∉ s'.stream.log
    rw [h.log, List.mem_append, hti]
    rintro (hold | hsent')
    · exact absurd ((hs.log i hold).trans (h.id_of_mem hi).1) (Nat.lt_irrefl _)
    · exact hnd.2.2 i hsent' i List.mem_cons_self rfl

/-- What was left behind stays behind. -/
theorem Broken.creation (hb : Broken w s.view) (hs : s.view.Sound) (h : Creation s s' run tasks sent) :
    Broken w s'.view := by
  obtain ⟨run', t, hnew, hrun', ht, htr, hlog⟩ := hb
  refine ⟨run', t, hnew, ?_, ?_, htr, ?_⟩
  · change run' ∈ s'.db.testRuns.rows
    rw [h.runRows]
    exact List.mem_append_left _ hrun'
  · change t ∈ s'.db.testTasks.rows
    rw [h.taskRows]
    exact List.mem_append_left _ ht
  · have hcount := h.count_log_old (hs.tasks t ht).1
    change s'.stream.log.count t.id = s.view.stream.log.count t.id at hcount
    rw [List.count_eq_zero_of_not_mem hlog] at hcount
    exact List.count_eq_zero.1 hcount

end

/-! A sweep: one creation after the other in one session. -/

/-- The tasks of a creation for `n` requests are all sent. -/
def SentAll (redis : ℕ → Call) (start : ℕ) : ℕ → Prop
  | 0 => True
  | n + 1 => Reached redis start (n + 1)

/-- The calls it takes. -/
def callsOf : ℕ → ℕ
  | 0 => 0
  | n + 1 => n + 2

/-- The tasks of all creations of a sweep are sent, for so many requests each. -/
def SweepReached (redis : ℕ → Call) : ℕ → List ℕ → Prop
  | _, [] => True
  | start, n :: sizes => SentAll redis start n ∧ SweepReached redis (start + callsOf n) sizes

/-- The session of a transaction on `w` that has only created runs and moved schedules. -/
structure Since (w : World) (x : Surroundings) (s : Session) : Prop where
  failed : s.failed = false
  sound : s.view.Sound
  nextId : w.nextId ≤ s.nextId
  requests : s.db.apiRequests = w.db.apiRequests
  collections : s.db.collections = w.db.collections
  users : s.db.users = w.db.users
  schedules : ∀ sc ∈ w.db.schedules.rows, (s.db.schedules.get? sc.id).isSome = true
  now : s.now = x.now
  redis : s.redis = x.redis
  commitCall : s.commitCall = x.commit

section
variable {w : World} {x : Surroundings} {s s' : Session} {lib : Libraries}

theorem since_session (hw : w.Sound) : Since w x (w.session x) where
  failed := rfl
  sound := hw
  nextId := Nat.le_refl _
  requests := rfl
  collections := rfl
  users := rfl
  schedules := fun _ hsc => Table.get?_isSome_iff.2 (List.mem_map_of_mem hsc)
  now := rfl
  redis := rfl
  commitCall := rfl

theorem Since.requestsOf (h : Since w x s) (id : UUID) : s.db.requestsOf id = w.db.requestsOf id := by
  unfold Database.requestsOf
  rw [h.requests]

theorem Since.creation {run : TestRun} {tasks : List TestTask} {sent : List UUID} (h : Since w x s)
    (hc : Creation s s' run tasks sent) : Since w x s' where
  failed := by rw [hc.rest]; exact h.failed
  sound := hc.sound h.sound
  nextId := h.nextId.trans (Nat.le_of_lt hc.nextId_lt)
  requests := by rw [hc.tables]; exact h.requests
  collections := by rw [hc.tables]; exact h.collections
  users := by rw [hc.tables]; exact h.users
  schedules := by rw [hc.tables]; exact h.schedules
  now := by rw [hc.rest]; exact h.now
  redis := by rw [hc.rest]; exact h.redis
  commitCall := by rw [hc.rest]; exact h.commitCall

/-- What the round for a schedule has done about its run. -/
structure Round (w : World) (x : Surroundings) (sc : Schedule) (s s' : Session) : Prop where
  since : Since w x s'
  whole : SentAll x.redis s.redisCalls (w.db.requestsOf sc.collectionId).length →
    s'.redisCalls = s.redisCalls + callsOf (w.db.requestsOf sc.collectionId).length ∧
      (AllOrNothing w s.view none → AllOrNothing w s'.view none)
  cut : ¬ SentAll x.redis s.redisCalls (w.db.requestsOf sc.collectionId).length → Broken w s'.view
  broken : Broken w s.view → Broken w s'.view

theorem createScheduledRun_round {sc : Schedule} (h : Since w x s) (hw : w.Sound)
    (hsc : sc ∈ w.db.schedules.rows) :
    ∃ r s', TestRunService.createScheduledRun sc.collectionId sc.createdBy s = (r, s') ∧ Round w x sc s s' := by
  by_cases hreq : w.db.requestsOf sc.collectionId = []
  · refine ⟨_, s, createRunFor_empty h.failed (by rw [h.requestsOf, hreq]), h, fun _ => ?_, fun hcut => ?_, id⟩
    · rw [hreq]
      exact ⟨rfl, id⟩
    · rw [hreq] at hcut
      exact absurd trivial hcut
  · obtain ⟨hcol, hu⟩ := hw.schedules sc hsc
    obtain ⟨c, hcol⟩ := Option.isSome_iff_exists.1 hcol
    obtain ⟨r, s', config, sent, hrun, hc, hiff, -, hcalls⟩ :=
      createRunFor_run .scheduled none h.failed h.sound
        (by rw [h.requestsOf]; exact hreq) (by rw [h.collections]; exact hcol) (by rw [h.users]; exact hu)
    have hlen : (plannedTasks s sc.collectionId none).length = (w.db.requestsOf sc.collectionId).length := by
      rw [length_plannedTasks, h.requestsOf]
      exact Nat.mul_one _
    have hreach : SentAll x.redis s.redisCalls (w.db.requestsOf sc.collectionId).length ↔
        Reached s.redis s.redisCalls (plannedTasks s sc.collectionId none).length := by
      rw [hlen, h.redis]
      obtain ⟨q, qs, hqs⟩ := List.exists_cons_of_ne_nil hreq
      rw [hqs]
      rfl
    refine ⟨r, s', hrun, h.creation hc, fun hall => ⟨?_, fun hprev => ?_⟩, fun hcut => ?_, fun hb => ?_⟩
    · rw [hcalls (hreach.1 hall), hlen]
      obtain ⟨q, qs, hqs⟩ := List.exists_cons_of_ne_nil hreq
      rw [hqs]
      rfl
    · refine hc.allOrNothing h.sound (hiff.2 (hreach.1 hall)) ?_ ?_ hprev
      · rw [plannedRun, h.requestsOf, length_rowsOf]
      · rw [plannedTasks, map_assignIds (fun _ _ => rfl), origin_pendingTasks, h.requestsOf]
        rfl
    · exact hc.broken h.sound hw h.nextId fun hsent => hcut (hreach.2 (hiff.1 hsent))
    · exact hb.creation h.sound hc

theorem computeNextRunAt_run {expression timezone : String} {nextRunAt : Timestamp}
    (h : lib.cronNext expression timezone s.now = .ok nextRunAt) :
    computeNextRunAt lib expression timezone s = (.ok nextRunAt, s) := by
  unfold computeNextRunAt
  rw [bind_of_ok _ now_run, h]
  rfl

theorem computeNextRunAt_raise {expression timezone : String} {exc : LibraryExn}
    (h : lib.cronNext expression timezone s.now = .error exc) :
    computeNextRunAt lib expression timezone s = (.error exc.val, s) := by
  unfold computeNextRunAt
  rw [bind_of_ok _ now_run, h]
  rfl

/-- The handler of a round lets nothing through. -/
theorem handled_run {m : ServiceM TestRun} {r : Except Exn TestRun} (h : m s = (r, s')) :
    ∃ b, (tryCatch (do let _ ← m; pure true) fun _ => pure false : ServiceM Bool) s = (.ok b, s') := by
  have hbody := bind_return h true
  cases r with
  | ok run => exact ⟨true, tryCatch_of_ok _ hbody⟩
  | error exc => exact ⟨false, tryCatch_of_error _ hbody⟩

/-- The row of a schedule is replaced by one for the same collection and creator. -/
theorem Since.schedule {sc moved : Schedule} (h : Since w x s) (hw : w.Sound) (hsc : sc ∈ w.db.schedules.rows)
    (hcol : moved.collectionId = sc.collectionId) (huser : moved.createdBy = sc.createdBy) :
    Since w x { s with db := { s.db with schedules := s.db.schedules.set moved } } where
  failed := h.failed
  sound :=
    { runs := h.sound.runs
      tasks := h.sound.tasks
      log := h.sound.log
      schedules := by
        intro q hq
        rcases Table.mem_rows_set hq with rfl | hq
        · change (s.db.collections.get? _).isSome = true ∧ (s.db.users.get? _).isSome = true
          rw [hcol, huser, h.collections, h.users]
          exact hw.schedules sc hsc
        · exact h.sound.schedules q hq }
  nextId := h.nextId
  requests := h.requests
  collections := h.collections
  users := h.users
  schedules := fun q hq => Table.get?_isSome_iff.2
    (Table.mem_keys_set.2 (.inr (Table.get?_isSome_iff.1 (h.schedules q hq))))
  now := h.now
  redis := h.redis
  commitCall := h.commitCall

/-- One round: the creation, and then the schedule is moved on. -/
theorem triggerSchedule_round {sc : Schedule} {nextRunAt : Timestamp} (h : Since w x s) (hw : w.Sound)
    (hsc : sc ∈ w.db.schedules.rows)
    (hcron : lib.cronNext sc.cronExpression sc.timezone x.now = .ok nextRunAt) :
    ∃ triggered s', triggerSchedule lib sc s = (.ok triggered, s') ∧ Round w x sc s s' := by
  obtain ⟨r, s₁, hcreate, hround⟩ := createScheduledRun_round h hw hsc
  obtain ⟨triggered, htry⟩ := handled_run hcreate
  have hsince := hround.since
  set moved : Schedule := { sc with lastRunAt := some s₁.now, nextRunAt := some nextRunAt } with hmoved
  have hrow : updateRow s₁.db.schedules moved = .ok (s₁.db.schedules.set moved) :=
    if_pos (hsince.schedules sc hsc)
  have hcron' : lib.cronNext sc.cronExpression sc.timezone s₁.now = .ok nextRunAt := by rw [hsince.now, hcron]
  refine ⟨triggered, { s₁ with db := { s₁.db with schedules := s₁.db.schedules.set moved } }, ?_,
    hsince.schedule hw hsc rfl rfl, fun hall => ?_, hround.cut, hround.broken⟩
  · unfold triggerSchedule ScheduleRepository.update
    rw [bind_of_ok _ htry, bind_of_ok _ (computeNextRunAt_run hcron'), bind_of_ok _ now_run]
    refine bind_of_ok (a := moved) _ (bind_of_ok _ (flush_run hsince.failed ?_))
    rw [← hmoved, hrow]
    rfl
  · obtain ⟨hcalls, hkeep⟩ := hround.whole hall
    exact ⟨hcalls, fun hprev => (hkeep hprev).congr rfl rfl rfl⟩

theorem triggerSchedule_raise {sc : Schedule} {exc : LibraryExn} (h : Since w x s) (hw : w.Sound)
    (hsc : sc ∈ w.db.schedules.rows)
    (hcron : lib.cronNext sc.cronExpression sc.timezone x.now = .error exc) :
    ∃ s', triggerSchedule lib sc s = (.error exc.val, s') := by
  obtain ⟨r, s₁, hcreate, hround⟩ := createScheduledRun_round h hw hsc
  obtain ⟨triggered, htry⟩ := handled_run hcreate
  have hcron' : lib.cronNext sc.cronExpression sc.timezone s₁.now = .error exc := by
    rw [hround.since.now, hcron]
  unfold triggerSchedule
  rw [bind_of_ok _ htry]
  exact ⟨s₁, bind_of_error _ (computeNextRunAt_raise hcron')⟩

/-- The next occurrence of the schedule can be computed. -/
def Timed (lib : Libraries) (now : Timestamp) (sc : Schedule) : Prop :=
  ∃ nextRunAt, lib.cronNext sc.cronExpression sc.timezone now = .ok nextRunAt

/-- The sweep gets through: the runs are complete where every round sent all its tasks,
and otherwise one of them is not. -/
theorem triggerAll_run (due : List Schedule) (hw : w.Sound) (hdue : ∀ sc ∈ due, sc ∈ w.db.schedules.rows)
    (htimed : ∀ sc ∈ due, Timed lib x.now sc) (k : ℕ) (h : Since w x s) :
    ∃ n s', triggerAll lib due k s = (.ok n, s') ∧ Since w x s' ∧
      (SweepReached x.redis s.redisCalls (due.map fun sc => (w.db.requestsOf sc.collectionId).length) →
        AllOrNothing w s.view none → AllOrNothing w s'.view none) ∧
      (¬ SweepReached x.redis s.redisCalls (due.map fun sc => (w.db.requestsOf sc.collectionId).length) →
        Broken w s'.view) ∧
      (Broken w s.view → Broken w s'.view) := by
  induction due generalizing s k with
  | nil => exact ⟨k, s, rfl, h, fun _ hall => hall, fun hn => absurd trivial hn, id⟩
  | cons sc due ih =>
    obtain ⟨nextRunAt, hcron⟩ := htimed sc List.mem_cons_self
    obtain ⟨triggered, s₁, hrun, hround⟩ := triggerSchedule_round h hw (hdue sc List.mem_cons_self) hcron
    obtain ⟨n, s', hrest, hsince, hwhole, hcut, hbroken⟩ :=
      ih (fun q hq => hdue q (List.mem_cons_of_mem _ hq)) (fun q hq => htimed q (List.mem_cons_of_mem _ hq))
        (if triggered then k + 1 else k) hround.since
    refine ⟨n, s', (bind_of_ok _ hrun).trans hrest, hsince, ?_, ?_, fun hb => hbroken (hround.broken hb)⟩
    · rintro ⟨hsent, hreached⟩ hall
      obtain ⟨hcalls, hkeep⟩ := hround.whole hsent
      rw [← hcalls] at hreached
      exact hwhole hreached (hkeep hall)
    · intro hnot
      by_cases hsent : SentAll x.redis s.redisCalls (w.db.requestsOf sc.collectionId).length
      · refine hcut fun hreached => hnot ⟨hsent, ?_⟩
        rwa [(hround.whole hsent).1] at hreached
      · exact hbroken (hround.cut hsent)

/-- One schedule that cannot be moved on ends the whole sweep. -/
theorem triggerAll_raise (due : List Schedule) (hw : w.Sound) (hdue : ∀ sc ∈ due, sc ∈ w.db.schedules.rows)
    (htimed : ∃ sc ∈ due, ¬ Timed lib x.now sc) (k : ℕ) (h : Since w x s) :
    ∃ exc s', triggerAll lib due k s = (.error exc, s') := by
  induction due generalizing s k with
  | nil => simp at htimed
  | cons sc due ih =>
    rcases hcron : lib.cronNext sc.cronExpression sc.timezone x.now with exc | nextRunAt
    · obtain ⟨s', hrun⟩ := triggerSchedule_raise h hw (hdue sc List.mem_cons_self) hcron
      exact ⟨exc.val, s', bind_of_error _ hrun⟩
    · obtain ⟨triggered, s₁, hrun, hround⟩ := triggerSchedule_round h hw (hdue sc List.mem_cons_self) hcron
      obtain ⟨q, hq, hnot⟩ := htimed
      rcases List.mem_cons.1 hq with rfl | hq
      · exact absurd ⟨nextRunAt, hcron⟩ hnot
      · obtain ⟨exc, s', hrest⟩ := ih (fun q hq => hdue q (List.mem_cons_of_mem _ hq)) ⟨q, hq, hnot⟩
          (if triggered then k + 1 else k) hround.since
        exact ⟨exc, s', (bind_of_ok _ hrun).trans hrest⟩

theorem uncommitted_triggerAll (lib : Libraries) (due : List Schedule) (k : ℕ) : Uncommitted (triggerAll lib due k) := by
  induction due generalizing k with
  | nil => exact keeps_pure k
  | cons sc due ih =>
    refine Keeps.bind ?_ fun triggered => ih _
    refine Keeps.bind ?_ fun triggered => Keeps.bind ?_ fun nextRunAt => readOnly_now.uncommitted.bind fun at_ => ?_
    · exact (uncommitted_createRunFor.bind fun _ => keeps_pure true).tryCatch fun _ => keeps_pure false
    · refine readOnly_now.uncommitted.bind fun at_ => ?_
      split
      · exact keeps_pure _
      · exact keeps_throw _
    · exact ((uncommitted_flush _).bind fun _ => keeps_pure _).bind fun _ => keeps_pure _

end

/-! The two callers. -/

inductive Caller
  | request (user : User) (collectionId : UUID) (dataRows : Option (List (Dict String String)))
  | cronSweep (batchSize : ℕ)

def Caller.run (lib : Libraries) : Caller → ServiceM Unit
  | .request user collectionId dataRows => do
    let _ ← getDb (TestRunService.createRun user collectionId dataRows)
  | .cronSweep batchSize => do
    let _ ← cronSweepOnce lib batchSize

/-- A scheduled run has no data rows. -/
def Caller.dataRows : Caller → Option (List (Dict String String))
  | .request _ _ dataRows => dataRows
  | .cronSweep _ => none

/-- A sweep that commits must have sent the tasks of all its runs. -/
def SweepFinishes (lib : Libraries) (x : Surroundings) (w : World) (batchSize : ℕ) : Prop :=
  x.commit.tookEffect = false ∨ (∃ sc ∈ w.db.dueSchedules x.ties x.now batchSize, ¬ Timed lib x.now sc) ∨
    SweepReached x.redis 0
      ((w.db.dueSchedules x.ties x.now batchSize).map fun sc => (w.db.requestsOf sc.collectionId).length)

def Caller.Finishes (lib : Libraries) (x : Surroundings) (w : World) : Caller → Prop
  | .request _ _ _ => True
  | .cronSweep batchSize => SweepFinishes lib x w batchSize

section
variable {w : World} {x : Surroundings} {s : Session} {lib : Libraries}

/-- The end of a transaction that has raised nothing so far. -/
theorem commit_run (hs : s.failed = false) :
    ∃ r, commit s = (r, { s with committed := if s.commitCall.tookEffect then s.db else s.committed }) := by
  unfold commit
  rw [hs]
  exact ⟨_, rfl⟩

theorem request_allOrNothing (user : User) (collectionId : UUID) (dataRows : Option (List (Dict String String)))
    (hw : w.Sound) :
    AllOrNothing w (transact (getDb (TestRunService.createRun user collectionId dataRows)) x w).2 dataRows := by
  have hkeep := uncommitted_createRun user collectionId dataRows (w.session x)
  rcases hrun : TestRunService.createRun user collectionId dataRows (w.session x) with ⟨r, s₁⟩
  rw [hrun] at hkeep
  unfold transact
  cases r with
  | error exc =>
    rw [getDb, bind_of_error _ hrun]
    exact allOrNothing_of_db hw hkeep
  | ok run =>
    have hfor := createRun_ok hrun
    have hsince : Since w x (w.session x) := since_session hw
    obtain ⟨hreq, ⟨c, hcol⟩, hu⟩ := createRunFor_ok hsince.failed hfor
    obtain ⟨r, s', config, sent, hrun', hc, hiff, hok, -⟩ := createRunFor_run .manual dataRows
      hsince.failed hsince.sound hreq hcol hu
    rw [hfor] at hrun'
    obtain ⟨rfl, rfl⟩ := Prod.mk.inj hrun'
    have hsince' := hsince.creation hc
    have hall : AllOrNothing w s₁.view dataRows := by
      refine hc.allOrNothing hsince.sound (hiff.2 (hok run rfl).2) ?_ ?_ (allOrNothing_of_db hw rfl)
      · rw [plannedRun, length_rowsOf]
        rfl
      · rw [plannedTasks, map_assignIds (fun _ _ => rfl), origin_pendingTasks]
        rfl
    obtain ⟨r, hcommit⟩ := commit_run hsince'.failed
    rw [getDb, bind_of_ok _ hrun, bind_return hcommit]
    change AllOrNothing w ⟨if s₁.commitCall.tookEffect then s₁.db else s₁.committed, _, _⟩ dataRows
    split
    · exact hall
    · exact allOrNothing_of_db hw hkeep

/-- How a sweep over the schedules that are due ends. -/
theorem cronSweepOnce_eq {due : List Schedule} {batchSize : ℕ} (hs : s.failed = false)
    (hdue : s.db.dueSchedules s.ties s.now batchSize = due) :
    cronSweepOnce lib batchSize s =
      (if due.isEmpty then pure 0
      else do
        let triggeredCount ← triggerAll lib due 0
        commit
        return triggeredCount : ServiceM ℕ) s := by
  have hlist : ScheduleRepository.listDue s.now batchSize s = (.ok due, s) := by
    rw [ScheduleRepository.listDue, query_run hs, hdue]
  unfold cronSweepOnce
  rw [bind_of_ok _ now_run, bind_of_ok _ hlist]

theorem cronSweep_allOrNothing_iff (batchSize : ℕ) (hw : w.Sound) :
    AllOrNothing w (transact (cronSweepOnce lib batchSize) x w).2 none ↔ SweepFinishes lib x w batchSize := by
  have hsince : Since w x (w.session x) := since_session hw
  have hmem : ∀ sc ∈ w.db.dueSchedules x.ties x.now batchSize, sc ∈ w.db.schedules.rows :=
    fun _ h => (mem_dueSchedules h).1
  unfold SweepFinishes transact
  rcases hdue : w.db.dueSchedules x.ties x.now batchSize with _ | ⟨sc, due⟩
  · have hempty : cronSweepOnce lib batchSize (w.session x) = _ := cronSweepOnce_eq rfl hdue
    rw [hempty]
    exact ⟨fun _ => .inr (.inr trivial), fun _ => allOrNothing_of_db hw rfl⟩
  · have heq : cronSweepOnce lib batchSize (w.session x) = _ := cronSweepOnce_eq rfl hdue
    rw [hdue] at hmem
    by_cases htimed : ∀ q ∈ sc :: due, Timed lib x.now q
    · obtain ⟨n, s', hrun, hsince', hwhole, hcut, -⟩ := triggerAll_run (sc :: due) hw hmem htimed 0 hsince
      have hkeep := uncommitted_triggerAll lib (sc :: due) 0 (w.session x)
      rw [hrun] at hkeep
      obtain ⟨r, hcommit⟩ := commit_run hsince'.failed
      have hsweep : cronSweepOnce lib batchSize (w.session x) = (r.map fun _ => n, _) :=
        heq.trans ((bind_of_ok _ hrun).trans (bind_return hcommit n))
      rw [hsweep]
      change AllOrNothing w ⟨if s'.commitCall.tookEffect then s'.db else s'.committed, _, _⟩ none ↔ _
      rw [hsince'.commitCall]
      cases hcommitted : x.commit.tookEffect with
      | false => exact ⟨fun _ => .inl rfl, fun _ => allOrNothing_of_db hw hkeep⟩
      | true =>
        constructor
        · intro hall
          by_contra hnot
          exact (hcut fun hreached => hnot (.inr (.inr hreached))).not_allOrNothing hall
        · rintro (h | ⟨q, hq, hnot⟩ | hreached)
          · cases h
          · exact absurd (htimed q hq) hnot
          · exact hwhole hreached (allOrNothing_of_db hw rfl)
    · simp only [not_forall, exists_prop] at htimed
      obtain ⟨exc, s', hrun⟩ := triggerAll_raise (sc :: due) hw hmem htimed 0 hsince
      have hkeep := uncommitted_triggerAll lib (sc :: due) 0 (w.session x)
      rw [hrun] at hkeep
      have hsweep : cronSweepOnce lib batchSize (w.session x) = (.error exc, s') :=
        heq.trans (bind_of_error _ hrun)
      rw [hsweep]
      exact ⟨fun _ => .inr (.inl htimed), fun _ => allOrNothing_of_db hw hkeep⟩

theorem transact_discard {α : Type} (m : ServiceM α) :
    (transact (do let _ ← m : ServiceM Unit) x w).2 = (transact m x w).2 := by
  rcases hm : m (w.session x) with ⟨r, s'⟩
  unfold transact
  rw [bind_return hm, hm]

end

/-- Creating runs is all or nothing exactly where it is not a sweep that commits a run
with a task it has not sent. -/
theorem all_or_nothing_iff (lib : Libraries) (c : Caller) (x : Surroundings) (w : World) (hw : w.Sound) :
    AllOrNothing w (transact (c.run lib) x w).2 c.dataRows ↔ c.Finishes lib x w := by
  cases c with
  | request user collectionId dataRows =>
    rw [Caller.run, transact_discard]
    exact ⟨fun _ => trivial, fun _ => request_allOrNothing user collectionId dataRows hw⟩
  | cronSweep batchSize =>
    rw [Caller.run, transact_discard]
    exact cronSweep_allOrNothing_iff batchSize hw

/-- A collection with one request and a schedule that is due. -/
def oneSchedule : World where
  db :=
    { Database.empty with
      users := Table.empty.set ⟨1, "ann@example.com"⟩
      projects := Table.empty.set ⟨2, 0, "Billing", none, 1, 0⟩
      collections := Table.empty.set ⟨0, 2, "Smoke", none, 0⟩
      apiRequests := Table.empty.set (plainRequest 3)
      schedules := Table.empty.set ⟨4, 0, "* * * * *", "UTC", true, some 0, none, 1, 0⟩ }
  stream := .empty
  nextId := 5

theorem sound_oneSchedule : oneSchedule.Sound where
  runs := by simp [oneSchedule, Database.empty, Table.empty]
  tasks := by simp [oneSchedule, Database.empty, Table.empty]
  log := by simp [oneSchedule, Stream.empty]
  schedules := by
    intro sc hsc
    obtain rfl : sc = ⟨4, 0, "* * * * *", "UTC", true, some 0, none, 1, 0⟩ := List.mem_singleton.1 hsc
    exact ⟨rfl, rfl⟩

/-- Redis is there for the first call only; the commit goes through. -/
def redisLost : Surroundings := ⟨60, fun i => if i = 0 then .ok else .raisedBefore, .ok, .table⟩

theorem all_or_nothing_redisLost :
    AllOrNothing oneSchedule (transact ((Caller.cronSweep 50).run plainLibraries) redisLost oneSchedule).2 none ↔
      (Caller.cronSweep 50).Finishes plainLibraries redisLost oneSchedule :=
  all_or_nothing_iff plainLibraries (.cronSweep 50) redisLost oneSchedule sound_oneSchedule

/-- The sweep commits a run whose one task was never enqueued. -/
theorem not_all_or_nothing_redisLost :
    ¬ AllOrNothing oneSchedule
      (transact ((Caller.cronSweep 50).run plainLibraries) redisLost oneSchedule).2 none := by
  have hdue : oneSchedule.db.dueSchedules redisLost.ties redisLost.now 50 =
      [⟨4, 0, "* * * * *", "UTC", true, some 0, none, 1, 0⟩] := rfl
  have hrequests : (oneSchedule.db.requestsOf 0).length = 1 := rfl
  rw [Caller.run, transact_discard, cronSweep_allOrNothing_iff 50 sound_oneSchedule, SweepFinishes, hdue]
  rintro (hcommit | ⟨sc, -, hnot⟩ | hreached)
  · cases hcommit
  · exact hnot ⟨_, rfl⟩
  · rw [List.map_singleton, hrequests] at hreached
    exact Bool.false_ne_true hreached.1.2

end ApiTesting
