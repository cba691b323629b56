import ApiTesting.Lib.Traces
import ApiTesting.Proofs.ChainOrder
import ApiTesting.Proofs.ContextKeys
import ApiTesting.Proofs.Creation
import ApiTesting.Spec.DataRow

/-! What keeps a data row to itself: its key in the contexts is its own, the environment
reaches a request through the snapshot of the run alone, no entry is in two batches, and
nothing but their progress is written to a run and its tasks once they are created. -/

namespace ApiTesting

open Keyed Machine Fallible

/-! A run as it was created. -/

theorem rows_of_planRun {s s' : Session} {collectionId initiatedBy : UUID} {runType : TestRunType}
    {dataRows : Option (List (Dict String String))} {run : TestRun} {tasks : List TestTask}
    (h : TestRunService.planRun collectionId initiatedBy runType dataRows s = (.ok (run, tasks), s')) :
    (∃ collection, s.db.collections.get? run.collectionId = some collection ∧
      run.config = Dict.put .empty "environment_variables"
        (environmentOf (s.db.variablesOf collection.projectId))) ∧
      (∀ t ∈ tasks, t.testRunId = run.id) ∧ (tasks.map TestTask.id).Nodup := by
  unfold TestRunService.planRun at h
  obtain ⟨requests, s₁, hrequests, h₁⟩ := ok_of_bind h
  obtain rfl := (readOnly_query _).same hrequests
  dsimp only at h₁
  split at h₁
  · cases h₁
  obtain ⟨x, s₂, hx, h₂⟩ := ok_of_bind h₁
  obtain rfl := (readOnly_query _).same hx
  obtain ⟨projectId, s₃, hproject, h₃⟩ := ok_of_bind h₂
  obtain ⟨defined, s₄, hdefined, h₄⟩ := ok_of_bind h₃
  obtain ⟨startedAt, s₅, hnow, h₅⟩ := ok_of_bind h₄
  obtain ⟨created, s₆, hcreated, h₆⟩ := ok_of_bind h₅
  obtain ⟨createdTasks, s₇, htasks, h₇⟩ := ok_of_bind h₆
  cases h₇
  cases x with
  | none => cases hproject
  | some collection =>
    cases hproject
    unfold TestRunRepository.create at hcreated
    obtain ⟨id, s₈, hid, hcreated⟩ := ok_of_bind hcreated
    obtain ⟨at_, s₉, hat, hcreated⟩ := ok_of_bind hcreated
    obtain ⟨u, s₁₀, hu, hcreated⟩ := ok_of_bind hcreated
    cases hcreated
    unfold TestTaskRepository.bulkCreate at htasks
    obtain ⟨firstId, s₁₁, hfirst, htasks⟩ := ok_of_bind htasks
    obtain ⟨u', s₁₂, hu', htasks⟩ := ok_of_bind htasks
    cases htasks
    refine ⟨⟨collection, (query_ok hx).symm, by rw [query_ok hdefined]; rfl⟩, ?_, ?_⟩
    · intro t ht
      obtain ⟨p, hp, rfl⟩ := List.mem_map.1 ht
      exact (testRunId_of_mem_pendingTasks (List.fst_mem_of_mem_zipIdx hp)).1
    · rw [ids_assignIds]
      exact List.nodup_range'

namespace CreatedRun

variable {c : CreatedRun} {row : Option ℕ}

theorem environmentVariables_eq (c : CreatedRun) : c.run.environmentVariables = c.environment := by
  obtain ⟨_, _, _, _, _, hplan⟩ := c.created
  obtain ⟨⟨collection, hc, hconfig⟩, -⟩ := rows_of_planRun hplan
  rw [TestRun.environmentVariables, hconfig, Dict.lookup_put, if_pos rfl, environment, hc]
  rfl

theorem testRunId_eq {t : TestTask} (ht : t ∈ c.tasks) : t.testRunId = c.run.id := by
  obtain ⟨_, _, _, _, _, hplan⟩ := c.created
  exact (rows_of_planRun hplan).2.1 t ht

theorem nodup_tasks (c : CreatedRun) : (c.tasks.map TestTask.id).Nodup := by
  obtain ⟨_, _, _, _, _, hplan⟩ := c.created
  exact (rows_of_planRun hplan).2.2

end CreatedRun

/-! An attempt as its row sees it. -/

def TaskView.rowTask (v : TaskView) : RowTask := ⟨v.testTask.id, v.apiRequest, v.testTask.dataContext⟩

def Phase.rowAttempt : Phase → Option RowAttempt
  | .loaded v => some (.loaded v.rowTask)
  | .resolved v chain => some (.resolved v.rowTask chain)
  | .executing v chain => some (.executing v.rowTask chain)
  | _ => none

theorem chainContext_eq (v : TaskView) (now : Timestamp) (contexts : RunContext) :
    v.chainContext now contexts =
      v.rowTask.chainContext (contexts.getAll now v.testRun.id v.testTask.dataRowIndex) := rfl

theorem requests_eq {v : TaskView} {environment : Dict String String}
    (h : v.testRun.environmentVariables = environment) (chain : Dict String String) :
    v.requests chain = v.rowTask.requests environment chain := by
  subst h
  rfl

theorem testTaskId_of_requests {v : TaskView} {chain : Dict String String} {q : SentRequest}
    (h : q ∈ v.requests chain) : q.testTaskId = v.testTask.id := by
  unfold TaskView.requests at h
  split at h
  · rw [List.mem_singleton.1 h]
  · cases h

/-- Whether the rate limiter lets an attempt go on is no matter of the stores. -/
theorem passes_iff {lib : Libraries} {rateLimiter : Bool} {v : TaskView} {environment : Dict String String}
    (h : v.testRun.environmentVariables = environment) (chain : Dict String String) (allowed : Bool)
    (now : Timestamp) (call : Call) (st : Stores) :
    v.rowTask.passes lib rateLimiter environment chain allowed = true ↔
      (passRateLimit lib rateLimiter v chain allowed now call st).1 = .ok () := by
  subst h
  unfold passRateLimit RowTask.passes
  cases rateLimiter with
  | false => simp
  | true =>
    simp only [Bool.not_true, Bool.false_or, if_true]
    unfold checkRateLimit TaskView.rowTask
    rcases hr : resolveTemplate chain v.testRun.environmentVariables v.apiRequest.url with e | url
    · by_cases hcls : e.cls = .undefinedVariable <;> simp [hcls]
    · rcases hh : hostForUrl lib url with e | _ | host
      · simp [hh]
      · simp [hh]
      · cases allowed with
        | true => simp [hh]
        | false => cases call <;> simp [hh, Stores.scheduleRetry, Call.returned]

/-- What an attempt merges is what its row extracts. -/
theorem extracted_eq {lib : Libraries} {w : WorkerId} {v : TaskView} {environment : Dict String String}
    (h : v.testRun.environmentVariables = environment) (chain : Dict String String)
    (reply : HttpReply) (now : Timestamp) (db : Database) :
    v.rowTask.extracted lib environment chain (db.assertionsOf v.apiRequest.id) reply =
      match judgeReply lib w v chain reply now db with
      | .ok (.merge vars, _) => some vars
      | _ => none := by
  subst h
  unfold judgeReply judgeResult RowTask.extracted TaskView.resolve TaskView.rowTask
  dsimp only
  rcases execute v.apiRequest.timeoutMs
    (resolveRequest chain v.testRun.environmentVariables v.apiRequest) reply with e | result
  · rfl
  · simp only [bind, Except.bind, pure, Except.pure]
    rcases evaluateResult lib (db.assertionsOf v.apiRequest.id) v.apiRequest chain result with e | ev
    · rfl
    dsimp only
    rcases hencoded : ev.encoded with e | extracted
    · rfl
    dsimp only
    by_cases hreasons : ev.failureReasons.isEmpty
    · by_cases hvars : extracted.rows.isEmpty <;> simp [decideOutcome, hreasons, hvars]
    · -- after a failure there is nothing to merge
      have hempty : Table.empty = extracted := by simpa [Evaluation.encoded, hreasons] using hencoded
      subst hempty
      by_cases hbudget : v.testTask.retryCount + 1 ≤ v.testTask.maxRetries <;>
        simp [decideOutcome, hreasons, hbudget, Table.empty]

section
variable {lib : Libraries} {rateLimiter : Bool} {s s' : System} {a : Action} {w : WorkerId} {i : ℕ}
  {slot slot' : Slot}

/-- No entry is in two slots, and those to come have other ids. -/
structure System.Distinct (s : System) : Prop where
  lt : ∀ {w i slot}, s.slotAt? w i = some slot → slot.entry.entryId < s.stream.delivered
  inj : ∀ {w i slot v j slot'}, s.slotAt? w i = some slot → s.slotAt? v j = some slot' →
    slot.entry.entryId = slot'.entry.entryId → w = v ∧ i = j

/-- Nothing but a delivery changes how much of the stream has been delivered. -/
theorem delivered_of_move (hm : Move lib rateLimiter s a s') :
    s'.stream.delivered = s.stream.delivered ∨ ∃ w count now, a = .consume w count now ∧
      s'.stream.delivered = s.stream.delivered + (s.stream.batch count).length := by
  have hack : ∀ ids call, (runAck ids call s.stream).2.delivered = s.stream.delivered := by
    intro ids call
    unfold runAck
    dsimp only
    split <;> rfl
  have henqueue : ∀ (call : Call) t,
      (if call.tookEffect then s.stream.enqueue t else s.stream).delivered = s.stream.delivered := by
    intro call t
    split <;> rfl
  cases hm with
  | consume hw => exact .inr ⟨_, _, _, rfl, rfl⟩
  | ack => exact .inl (hack _ _)
  | reclaimAck => exact .inl (hack _ _)
  | retryEnqueue => exact .inl (henqueue _ _)
  | reclaimEnqueue => exact .inl (henqueue _ _)
  | _ => exact .inl rfl

theorem entryId_of_batch {st : Stream} {count : ℕ} {e : StreamEntry} (h : (st.batch count)[i]? = some e) :
    e.entryId = st.delivered + i := by
  have hids : ((st.batch count).map StreamEntry.entryId)[i]? = some e.entryId := by
    rw [List.getElem?_map, h]
    rfl
  rw [Stream.batch_ids] at hids
  obtain ⟨_, hid⟩ := List.getElem?_eq_some_iff.1 hids
  rw [← hid, List.getElem_range', Nat.one_mul]

/-- The entry of a slot was there before the step, or has just been delivered. -/
theorem entry_of_move (hm : Move lib rateLimiter s a s') (h : s'.slotAt? w i = some slot') :
    (∃ slot, s.slotAt? w i = some slot ∧ slot.entry = slot'.entry) ∨
    ∃ count now, a = .consume w count now ∧ slot'.entry.entryId = s.stream.delivered + i ∧
      i < (s.stream.batch count).length := by
  rcases slotAt?_of_move hm h with ⟨hold, -⟩ | ⟨sa, slot, e, -, hold, -, rfl⟩ |
    ⟨count, now, rfl, he, -⟩
  · exact .inl ⟨slot', hold, rfl⟩
  · exact .inl ⟨slot, hold, rfl⟩
  · exact .inr ⟨count, now, rfl, entryId_of_batch he, (List.getElem?_eq_some_iff.1 he).1⟩

theorem System.Distinct.step (h : s.Distinct) (hm : Move lib rateLimiter s a s') : s'.Distinct where
  lt := by
    intro w i slot' hat
    rcases entry_of_move hm hat with ⟨slot, hslot, he⟩ | ⟨count, now, rfl, he, hi⟩
    · have hlt := h.lt hslot
      rw [he] at hlt
      rcases delivered_of_move hm with hd | ⟨_, _, _, -, hd⟩ <;> omega
    · have hd : s'.stream.delivered = s.stream.delivered + (s.stream.batch count).length := by
        cases hm
        rfl
      omega
  inj := by
    intro w i slot v j slot' hat hat' hid
    rcases entry_of_move hm hat with ⟨old, hold, he⟩ | ⟨count, now, ha, he, -⟩
    · rcases entry_of_move hm hat' with ⟨old', hold', he'⟩ | ⟨count', now', ha', he', -⟩
      · exact h.inj hold hold' (by rw [he, he', hid])
      · have hlt := h.lt hold
        rw [he] at hlt
        omega
    · rcases entry_of_move hm hat' with ⟨old', hold', he'⟩ | ⟨count', now', ha', he', -⟩
      · have hlt := h.lt hold'
        rw [he'] at hlt
        omega
      · rw [ha] at ha'
        cases ha'
        exact ⟨rfl, by omega⟩

end

/-- The run and its tasks are as they were created, wherever they are there: nothing but
their progress is written after that. -/
structure CreatedRun.Kept (c : CreatedRun) (db : Database) : Prop where
  ids : ∀ run ∈ db.testRuns.rows, run.id < 2 ^ 128
  runs : ∀ run ∈ db.testRuns.rows, run.id = c.run.id → run.config = c.run.config
  tasks : ∀ t ∈ db.testTasks.rows, t.testRunId = c.run.id ∨ t.id ∈ c.tasks.map TestTask.id →
    ∃ t₀ ∈ c.tasks, t.plan = t₀.plan

/-- An attempt is one of the row, with the key and the environment of the row, or it uses
another key. -/
inductive CreatedRun.Sees (c : CreatedRun) (row : Option ℕ) (v : TaskView) : Prop
  | own : v.testTask.id ∈ c.rowTasks row → v.contextKey = RunContext.contextKey c.run.id row →
      v.testRun.environmentVariables = c.environment → Sees c row v
  | foreign : v.testTask.id ∉ c.rowTasks row → v.contextKey ≠ RunContext.contextKey c.run.id row →
      Sees c row v

namespace CreatedRun

variable {lib : Libraries} {rateLimiter : Bool} {s s' : System} {a : Action} {c : CreatedRun}
  {row : Option ℕ} {db : Database}

theorem mem_rowTasks {t : TestTask} (ht : t ∈ c.tasks) : t.id ∈ c.rowTasks row ↔ t.dataRowIndex = row := by
  constructor
  · intro h
    obtain ⟨u, hu, hid⟩ := List.mem_map.1 h
    obtain ⟨hu, hrow⟩ := List.mem_filter.1 hu
    obtain rfl := List.inj_on_of_nodup_map c.nodup_tasks hu ht hid
    exact of_decide_eq_true hrow
  · intro h
    exact List.mem_map_of_mem (List.mem_filter.2 ⟨ht, decide_eq_true h⟩)

theorem mem_of_mem_rowTasks {id : UUID} (h : id ∈ c.rowTasks row) : id ∈ c.tasks.map TestTask.id := by
  obtain ⟨t, ht, rfl⟩ := List.mem_map.1 h
  exact List.mem_map_of_mem (List.mem_filter.1 ht).1

/-- What an attempt has read is enough to tell whose it is. -/
theorem Kept.sees (h : c.Kept db) {id : UUID} {v : TaskView} (hv : loadTask db id = .ok v) : c.Sees row v := by
  obtain ⟨htask, -, hrun⟩ := loadTask_eq_ok_iff.1 hv
  obtain ⟨htask, -⟩ := Table.get?_eq_some_iff.1 htask
  obtain ⟨hrun, hrunId⟩ := Table.get?_eq_some_iff.1 hrun
  -- a task of the run is one of those that were created
  have hcreated : v.testTask.testRunId = c.run.id ∨ v.testTask.id ∈ c.tasks.map TestTask.id →
      v.testTask.testRunId = c.run.id ∧
        (v.testTask.id ∈ c.rowTasks row ↔ v.testTask.dataRowIndex = row) := by
    intro hc
    obtain ⟨t, ht, hplan⟩ := h.tasks _ htask hc
    have hid : v.testTask.plan.id = t.plan.id := by rw [hplan]
    have hrow : v.testTask.plan.dataRowIndex = t.plan.dataRowIndex := by rw [hplan]
    have hrunId : v.testTask.plan.testRunId = t.plan.testRunId := by rw [hplan]
    change v.testTask.id = t.id at hid
    change v.testTask.dataRowIndex = t.dataRowIndex at hrow
    change v.testTask.testRunId = t.testRunId at hrunId
    rw [hid, hrow, hrunId]
    exact ⟨testRunId_eq ht, mem_rowTasks ht⟩
  by_cases hown : v.testTask.id ∈ c.rowTasks row
  · obtain ⟨hid, hiff⟩ := hcreated (.inr (mem_of_mem_rowTasks hown))
    refine .own hown ?_ ?_
    · rw [TaskView.contextKey, hrunId, hid, hiff.1 hown]
    · rw [← environmentVariables_eq, TestRun.environmentVariables, TestRun.environmentVariables,
        h.runs _ hrun (hrunId.trans hid)]
  · refine .foreign hown fun hkey => hown ?_
    obtain ⟨hid, hrow⟩ := RunContext.contextKey_inj (h.ids _ hrun) c.id_lt hkey
    exact (hcreated (.inl (hrunId.symm.trans hid))).2.2 hrow

theorem credit_config (r : TestRun) (outcomes : List TaskOutcome) (now : Timestamp) :
    (r.credit outcomes now).config = r.config := by
  unfold TestRun.credit TestRun.finish TestRun.advance
  split <;> rfl

/-- A batch records progress only. -/
theorem Kept.written (h : c.Kept db) {outcomes : List TaskOutcome} {now : Timestamp} {db' : Database}
    (hw : Written outcomes now db db') : c.Kept db' := by
  have hrun : ∀ run' ∈ db'.testRuns.rows, ∃ run ∈ db.testRuns.rows, run'.id = run.id ∧
      run'.config = run.config := by
    intro run' hrun'
    have hkey : run'.id ∈ db.testRuns.keys := by
      rw [← hw.runKeys]
      exact List.mem_map_of_mem hrun'
    obtain ⟨run, hget⟩ := Option.isSome_iff_exists.1 (Table.get?_isSome_iff.2 hkey)
    obtain ⟨run'', hget', hid, -, -, -, hcases⟩ := hw.get?_testRuns hget
    rw [Table.get?_eq_some_iff.2 ⟨hrun', rfl⟩] at hget'
    obtain rfl := Option.some.inj hget'
    refine ⟨run, (Table.get?_eq_some_iff.1 hget).1, hid, ?_⟩
    rcases hcases with he | he
    · rw [he]
    · rw [he, credit_config]
  refine ⟨?_, ?_, ?_⟩
  · intro run' hrun'
    obtain ⟨run, hmem, hid, -⟩ := hrun run' hrun'
    rw [hid]
    exact h.ids run hmem
  · intro run' hrun' hc
    obtain ⟨run, hmem, hid, hconfig⟩ := hrun run' hrun'
    rw [hconfig]
    exact h.runs run hmem (hid.symm.trans hc)
  · intro t' ht' hc
    have hplan := map_plan_foldl_applyOutcome db outcomes t'.id
    rw [← hw.testTasks, Table.get?_eq_some_iff.2 ⟨ht', rfl⟩] at hplan
    obtain ⟨t, hget, hsame⟩ := Option.map_eq_some_iff.1 hplan.symm
    obtain ⟨ht, hid⟩ := Table.get?_eq_some_iff.1 hget
    have hrunId : t.plan.testRunId = t'.plan.testRunId := by rw [hsame]
    change t.testRunId = t'.testRunId at hrunId
    rw [← hsame]
    exact h.tasks t ht (by rwa [hid, hrunId])

theorem Kept.move (h : c.Kept s.stores.db) (hm : Move lib rateLimiter s a s') : c.Kept s'.stores.db := by
  rcases db_of_move hm with ⟨w, now, call, b, -, -, hdb⟩ | ⟨-, hdb⟩
  · rw [hdb]
    rcases runWrite_cases b.outcomes now call s.stores.db with hsame | ⟨-, hok⟩
    · rwa [hsame]
    · exact h.written (written_of_writeBatch hok)
  · rwa [hdb]

end CreatedRun

end ApiTesting
