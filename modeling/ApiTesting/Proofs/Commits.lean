import ApiTesting.Spec.ResultWriter
import ApiTesting.Lib.Raises

/-! What `write_batch` commits: the tasks as the outcomes leave them one after the
other, the runs credited with the terminal outcomes of the batch, and one result
and one log line for every outcome. -/

namespace ApiTesting

open Keyed Fallible

/-- The outcomes of one run with one of the statuses. -/
def tally (outcomes : List TaskOutcome) (run : UUID) (p : TestTaskStatus → Bool) : ℕ :=
  outcomes.countP fun o => o.testRunId = run ∧ p o.newStatus

/-- The batch counts for the run. -/
def counts (outcomes : List TaskOutcome) (run : UUID) : Prop :=
  ∃ o ∈ outcomes, o.testRunId = run ∧ o.newStatus.terminal

/-- A run after the batch: the increments and the guarded change of status. -/
def TestRun.credit (r : TestRun) (outcomes : List TaskOutcome) (now : Timestamp) : TestRun :=
  (r.advance ⟨tally outcomes r.id (· = .completed), tally outcomes r.id (· = .failed)⟩).finish now

structure Written (outcomes : List TaskOutcome) (now : Timestamp) (db db' : Database) : Prop where
  testTasks : db'.testTasks = (outcomes.foldl applyOutcome db).testTasks
  runKeys : db'.testRuns.keys = db.testRuns.keys
  credited : ∀ k r, db.testRuns.get? k = some r → counts outcomes k →
    db'.testRuns.get? k = some (r.credit outcomes now)
  uncredited : ∀ k, ¬ counts outcomes k → db'.testRuns.get? k = db.testRuns.get? k
  apiRequests : db'.apiRequests = db.apiRequests
  assertions : db'.assertions = db.assertions
  requestResults : db'.requestResults = db.requestResults ++ outcomes.map (buildRequestResult now)
  executionLogs : db'.executionLogs = db.executionLogs ++ outcomes.map (buildLog now)

section
variable {now : Timestamp} {db db' : Database} {outcomes : List TaskOutcome}

/-! The deltas of a batch. -/

theorem lookup_addDelta (d : Dict UUID Delta) (o : TaskOutcome) (run : UUID) :
    ((addDelta d o).lookup run).getD ⟨0, 0⟩ =
      ⟨((d.lookup run).getD ⟨0, 0⟩).completed + tally [o] run (· = .completed),
        ((d.lookup run).getD ⟨0, 0⟩).failed + tally [o] run (· = .failed)⟩ := by
  unfold addDelta
  split
  · rename_i ht
    rw [Dict.lookup_put]
    by_cases hr : run = o.testRunId
    · subst hr
      cases hs : o.newStatus <;> rw [hs] at ht <;> simp_all [tally, Delta.add, TestTaskStatus.terminal]
    · have hr' : ¬ o.testRunId = run := fun h => hr h.symm
      simp [hr, hr', tally]
  · rename_i ht
    have : o.newStatus ≠ .completed ∧ o.newStatus ≠ .failed := by
      constructor <;> intro hs <;> simp [hs, TestTaskStatus.terminal] at ht
    simp [tally, this]

theorem tally_cons (o : TaskOutcome) (outcomes : List TaskOutcome) (run : UUID)
    (p : TestTaskStatus → Bool) :
    tally (o :: outcomes) run p = tally [o] run p + tally outcomes run p := by
  rw [← List.singleton_append, tally, List.countP_append]
  rfl

theorem lookup_foldl_addDelta (outcomes : List TaskOutcome) (d : Dict UUID Delta) (run : UUID) :
    ((outcomes.foldl addDelta d).lookup run).getD ⟨0, 0⟩ =
      ⟨((d.lookup run).getD ⟨0, 0⟩).completed + tally outcomes run (· = .completed),
        ((d.lookup run).getD ⟨0, 0⟩).failed + tally outcomes run (· = .failed)⟩ := by
  induction outcomes generalizing d with
  | nil => simp [tally]
  | cons o outcomes ih =>
    rw [List.foldl_cons, ih, lookup_addDelta, tally_cons o outcomes run (· = .completed),
      tally_cons o outcomes run (· = .failed)]
    simp only [Nat.add_assoc]

theorem mem_keys_foldl_addDelta {d : Dict UUID Delta} {run : UUID} :
    run ∈ (outcomes.foldl addDelta d).keys ↔ run ∈ d.keys ∨ counts outcomes run := by
  induction outcomes generalizing d with
  | nil => simp [counts]
  | cons o outcomes ih =>
    rw [List.foldl_cons, ih]
    by_cases ht : o.newStatus.terminal
    · simp only [addDelta, ht, if_true, Dict.mem_keys_put, counts, List.mem_cons, exists_eq_or_imp,
        and_true]
      constructor
      · rintro ((rfl | h) | h)
        · exact .inr (.inl rfl)
        · exact .inl h
        · exact .inr (.inr h)
      · rintro (h | rfl | h)
        · exact .inl (.inr h)
        · exact .inl (.inl rfl)
        · exact .inr h
    · simp [addDelta, ht, counts]

theorem find_runDeltas {run : UUID} (h : counts outcomes run) :
    (runDeltas outcomes).lookup run =
      some ⟨tally outcomes run (· = .completed), tally outcomes run (· = .failed)⟩ := by
  have hmem : run ∈ (runDeltas outcomes).keys := mem_keys_foldl_addDelta.2 (.inr h)
  obtain ⟨p, hp⟩ := Option.isSome_iff_exists.1 (Table.get?_isSome_iff.2 hmem)
  have hget := lookup_foldl_addDelta outcomes .empty run
  have hlook : (runDeltas outcomes).lookup run = some p.2 := by
    rw [Dict.lookup, hp]
    rfl
  change ((runDeltas outcomes).lookup run).getD ⟨0, 0⟩ = _ at hget
  rw [hlook] at hget
  rw [hlook]
  simpa [Dict.lookup] using hget

/-! The loop over the runs. -/

theorem advanceRun_eq_ok {p : UUID × Delta} (h : advanceRun now db p = .ok db') :
    db' = { db with testRuns := db'.testRuns } ∧ db'.testRuns.keys = db.testRuns.keys ∧
      (∀ r, db.testRuns.get? p.1 = some r →
        db'.testRuns.get? p.1 = some ((r.advance p.2).finish now)) ∧
      ∀ k, k ≠ p.1 → db'.testRuns.get? k = db.testRuns.get? k := by
  unfold advanceRun at h
  split at h
  · cases h
  · cases h
    refine ⟨rfl, Table.keys_modify _ _ _ fun r => r.finish_advance_id p.2 now, ?_, ?_⟩
    · intro r hr
      rw [Table.get?_modify, if_pos rfl, hr]
      rfl
    · intro k hk
      exact Table.get?_modify_ne (fun r => r.finish_advance_id p.2 now) hk

theorem foldlM_advanceRun_eq_ok {l : List (UUID × Delta)} (hnd : (l.map Prod.fst).Nodup)
    (h : l.foldlM (advanceRun now) db = .ok db') :
    db' = { db with testRuns := db'.testRuns } ∧ db'.testRuns.keys = db.testRuns.keys ∧
      (∀ p ∈ l, ∀ r, db.testRuns.get? p.1 = some r →
        db'.testRuns.get? p.1 = some ((r.advance p.2).finish now)) ∧
      ∀ k, k ∉ l.map Prod.fst → db'.testRuns.get? k = db.testRuns.get? k := by
  induction l generalizing db with
  | nil =>
    cases h
    refine ⟨rfl, rfl, ?_, fun _ _ => rfl⟩
    intro p hp
    cases hp
  | cons p l ih =>
    rw [List.map_cons, List.nodup_cons] at hnd
    rw [List.foldlM_cons] at h
    rcases ha : advanceRun now db p with e | u
    · rw [ha] at h
      cases h
    · rw [ha] at h
      obtain ⟨hu, hukeys, hup, huk⟩ := advanceRun_eq_ok ha
      obtain ⟨hd, hdkeys, hdp, hdk⟩ := ih hnd.2 h
      refine ⟨?_, hdkeys.trans hukeys, ?_, ?_⟩
      · rw [hd, hu]
      · intro q hq r hr
        rcases List.mem_cons.1 hq with rfl | hq
        · rw [hdk _ hnd.1]
          exact hup r hr
        · have hne : q.1 ≠ p.1 := fun he => hnd.1 (he ▸ List.mem_map_of_mem hq)
          exact hdp q hq r (by rwa [huk _ hne])
      · intro k hk
        rw [List.map_cons, List.mem_cons, not_or] at hk
        rw [hdk k hk.2, huk k hk.1]

theorem foldlM_advanceRun_isOk {l : List (UUID × Delta)}
    (h : ∀ p ∈ l, (db.testRuns.get? p.1).isSome) : ∃ u, l.foldlM (advanceRun now) db = .ok u := by
  induction l generalizing db with
  | nil => exact ⟨db, rfl⟩
  | cons p l ih =>
    obtain ⟨r, hr⟩ := Option.isSome_iff_exists.1 (h p (by simp))
    obtain ⟨u, ha⟩ : ∃ u, advanceRun now db p = .ok u := by
      unfold advanceRun
      rw [hr]
      exact ⟨_, rfl⟩
    rw [List.foldlM_cons, ha]
    obtain ⟨-, hkeys, -, -⟩ := advanceRun_eq_ok ha
    refine ih fun q hq => ?_
    rw [Table.get?_isSome_iff, hkeys, ← Table.get?_isSome_iff]
    exact h q (List.mem_cons_of_mem _ hq)

/-! The tasks, and the whole write. -/

theorem foldl_applyOutcome_eq :
    outcomes.foldl applyOutcome db =
      { db with testTasks := (outcomes.foldl applyOutcome db).testTasks } := by
  induction outcomes generalizing db with
  | nil => rfl
  | cons o outcomes ih =>
    rw [List.foldl_cons, ih]
    rfl

theorem keys_foldl_applyOutcome :
    (outcomes.foldl applyOutcome db).testTasks.keys = db.testTasks.keys := by
  induction outcomes generalizing db with
  | nil => rfl
  | cons o outcomes ih =>
    rw [List.foldl_cons, ih]
    exact Table.keys_modify db.testTasks o.testTaskId (fun t => t.record o) fun _ => rfl

/-- The columns of a task no outcome touches. -/
def TestTask.plan (t : TestTask) : TestTask :=
  { t with status := .pending, retryCount := 0, nextRetryAt := none, assignedWorkerId := none }

theorem get?_applyOutcome (db : Database) (o : TaskOutcome) (k : UUID) :
    (applyOutcome db o).testTasks.get? k =
      if k = o.testTaskId then (db.testTasks.get? o.testTaskId).map fun t => t.record o
      else db.testTasks.get? k :=
  Table.get?_modify db.testTasks o.testTaskId k (fun t => t.record o) fun _ => rfl

/-- What a batch makes of one row: its own outcomes, one after the other. -/
theorem get?_foldl_applyOutcome (db : Database) (outcomes : List TaskOutcome) (k : UUID) :
    (outcomes.foldl applyOutcome db).testTasks.get? k =
      (db.testTasks.get? k).map fun t =>
        (outcomes.filter fun o => o.testTaskId = k).foldl TestTask.record t := by
  induction outcomes generalizing db with
  | nil => simp
  | cons o outcomes ih =>
    rw [List.foldl_cons, ih, get?_applyOutcome]
    by_cases h : o.testTaskId = k
    · subst h
      rw [if_pos rfl, List.filter_cons_of_pos (by simp), Option.map_map]
      rfl
    · rw [if_neg fun he => h he.symm, List.filter_cons_of_neg (by simpa using h)]

/-- The last outcome is what the row ends with. -/
theorem foldl_record_cases (outcomes : List TaskOutcome) (t : TestTask) :
    outcomes = [] ∧ outcomes.foldl TestTask.record t = t ∨
      ∃ o ∈ outcomes, ∃ u : TestTask, outcomes.foldl TestTask.record t = u.record o := by
  rcases List.eq_nil_or_concat outcomes with rfl | ⟨os, o, rfl⟩
  · exact .inl ⟨rfl, rfl⟩
  · refine .inr ⟨o, by simp, os.foldl TestTask.record t, ?_⟩
    rw [List.concat_eq_append, List.foldl_append]
    rfl

theorem map_plan_applyOutcome (o : TaskOutcome) (k : UUID) :
    ((applyOutcome db o).testTasks.get? k).map TestTask.plan =
      (db.testTasks.get? k).map TestTask.plan := by
  rw [get?_applyOutcome]
  split
  · rename_i h
    rw [h, Option.map_map]
    rfl
  · rfl

theorem map_plan_foldl_applyOutcome (db : Database) (outcomes : List TaskOutcome) (k : UUID) :
    ((outcomes.foldl applyOutcome db).testTasks.get? k).map TestTask.plan =
      (db.testTasks.get? k).map TestTask.plan := by
  induction outcomes generalizing db with
  | nil => rfl
  | cons o outcomes ih => rw [List.foldl_cons, ih, map_plan_applyOutcome]

/-- A batch that is committed found its tasks and its runs. -/
theorem parts_of_writeBatch (h : writeBatch outcomes now db = .ok db') :
    outcomes = [] ∧ db' = db ∨ ∃ updated,
      updateRunProgress outcomes now (outcomes.foldl applyOutcome db) = .ok updated ∧
      (∀ o ∈ outcomes, hasParents updated o) ∧
      db' = { updated with
        requestResults := updated.requestResults ++ outcomes.map (buildRequestResult now)
        executionLogs := updated.executionLogs ++ outcomes.map (buildLog now) } := by
  unfold writeBatch at h
  split at h
  · rename_i he
    cases h
    exact .inl ⟨List.isEmpty_iff.1 he, rfl⟩
  · obtain ⟨recorded, hrecord, h⟩ := bind_eq_ok_iff.1 h
    obtain ⟨updated, hupdate, hinsert⟩ := bind_eq_ok_iff.1 h
    unfold updateTasks at hrecord
    split at hrecord
    · cases hrecord
      unfold insertResults at hinsert
      split at hinsert
      · rename_i hall
        cases hinsert
        exact .inr ⟨updated, hupdate, List.all_eq_true.1 hall, rfl⟩
      · cases hinsert
    · cases hrecord

theorem written_of_writeBatch (h : writeBatch outcomes now db = .ok db') :
    Written outcomes now db db' := by
  rcases parts_of_writeBatch h with ⟨rfl, rfl⟩ | ⟨u, hu, -, rfl⟩
  · exact ⟨rfl, rfl, fun k r _ hc => by simp [counts] at hc, fun _ _ => rfl, rfl, rfl, by simp, by simp⟩
  · rw [foldl_applyOutcome_eq] at hu
    obtain ⟨hd, hkeys, hdp, hdk⟩ := foldlM_advanceRun_eq_ok (runDeltas outcomes).nodup hu
    refine ⟨?_, hkeys, ?_, ?_, ?_, ?_, ?_, ?_⟩
    · change u.testTasks = _
      rw [hd]
    · intro k r hr hc
      have hrow := find_runDeltas hc
      obtain ⟨p, hget, hpd⟩ := Option.map_eq_some_iff.1 hrow
      obtain ⟨hp, rfl⟩ := Table.get?_eq_some_iff.1 hget
      have hk : r.id = p.1 := (Table.get?_eq_some_iff.1 hr).2
      change u.testRuns.get? p.1 = _
      rw [hdp p hp r hr, hpd, TestRun.credit, hk]
    · intro k hc
      refine hdk k fun hk => hc ?_
      simpa [Table.keys, Table.empty] using mem_keys_foldl_addDelta.1 hk
    · change u.apiRequests = _
      rw [hd]
    · change u.assertions = _
      rw [hd]
    · change u.requestResults ++ _ = _
      rw [hd]
    · change u.executionLogs ++ _ = _
      rw [hd]

/-- A batch whose tasks and runs are there is committed. -/
theorem writeBatch_isOk (now : Timestamp) (h : ∀ o ∈ outcomes, hasParents db o) :
    ∃ u, writeBatch outcomes now db = .ok u := by
  have hpair : ∀ o ∈ outcomes,
      (db.testTasks.get? o.testTaskId).isSome ∧ (db.testRuns.get? o.testRunId).isSome := by
    intro o ho
    have := h o ho
    rwa [hasParents, Bool.and_eq_true] at this
  unfold writeBatch
  split
  · exact ⟨db, rfl⟩
  · have htasks : updateTasks outcomes db = .ok (outcomes.foldl applyOutcome db) := by
      rw [updateTasks, if_pos (List.all_eq_true.2 fun o ho => (hpair o ho).1)]
    obtain ⟨u, hu⟩ : ∃ u, updateRunProgress outcomes now (outcomes.foldl applyOutcome db) = .ok u := by
      rw [foldl_applyOutcome_eq]
      refine foldlM_advanceRun_isOk fun p hp => ?_
      have hk : p.1 ∈ (runDeltas outcomes).keys := List.mem_map_of_mem hp
      rw [runDeltas, mem_keys_foldl_addDelta] at hk
      obtain ⟨o, ho, hrun, -⟩ : counts outcomes p.1 := by simpa [Table.keys, Table.empty] using hk
      rw [← hrun]
      exact (hpair o ho).2
    have hu' := hu
    rw [foldl_applyOutcome_eq] at hu'
    obtain ⟨hd, hkeys, -, -⟩ := foldlM_advanceRun_eq_ok (runDeltas outcomes).nodup hu'
    have hall : outcomes.all (hasParents u) := by
      rw [List.all_eq_true]
      intro o ho
      have := hpair o ho
      simp only [hasParents, Bool.and_eq_true, Table.get?_isSome_iff] at this ⊢
      have hrows : u.testTasks = (outcomes.foldl applyOutcome db).testTasks := by rw [hd]
      rw [hkeys, hrows, keys_foldl_applyOutcome]
      exact this
    simp only [htasks, hu, bind, Except.bind, insertResults, hall, if_true]
    exact ⟨_, rfl⟩

/-- A batch that is committed found the task of each of its outcomes. -/
theorem row_of_writeBatch (h : writeBatch outcomes now db = .ok db') {o : TaskOutcome} (ho : o ∈ outcomes) :
    ∃ row, db'.testTasks.get? o.testTaskId = some row := by
  rcases parts_of_writeBatch h with ⟨rfl, rfl⟩ | ⟨u, -, hparents, rfl⟩
  · cases ho
  · have hparent := hparents o ho
    rw [hasParents, Bool.and_eq_true] at hparent
    exact Option.isSome_iff_exists.1 hparent.1

theorem tally_eq_zero {run : UUID} {p : TestTaskStatus → Bool} (h : ¬ counts outcomes run)
    (hp : ∀ s, p s → s.terminal) : tally outcomes run p = 0 := by
  rw [tally, List.countP_eq_zero]
  intro o ho hc
  obtain ⟨hrun, hstatus⟩ := of_decide_eq_true hc
  exact h ⟨o, ho, hrun, hp _ hstatus⟩

/-- What the batch does to one run: its counters move by the outcomes of the
batch, and its status is as the guard leaves it. -/
theorem Written.get?_testRuns (h : Written outcomes now db db') {k : UUID} {r : TestRun}
    (hr : db.testRuns.get? k = some r) : ∃ r', db'.testRuns.get? k = some r' ∧ r'.id = r.id ∧
      r'.totalTasks = r.totalTasks ∧
      r'.completedTasks = r.completedTasks + tally outcomes k (· = .completed) ∧
      r'.failedTasks = r.failedTasks + tally outcomes k (· = .failed) ∧
      (r' = r ∨ r' = r.credit outcomes now) := by
  have hid : r.id = k := (Table.get?_eq_some_iff.1 hr).2
  by_cases hc : counts outcomes k
  · refine ⟨_, h.credited k r hr hc, ?_⟩
    subst hid
    unfold TestRun.credit TestRun.finish TestRun.advance
    split <;> exact ⟨rfl, rfl, rfl, rfl, .inr rfl⟩
  · refine ⟨r, (h.uncredited k hc).trans hr, rfl, rfl, ?_, ?_, .inl rfl⟩
    · rw [tally_eq_zero hc (by simp [TestTaskStatus.terminal]), Nat.add_zero]
    · rw [tally_eq_zero hc (by simp [TestTaskStatus.terminal]), Nat.add_zero]

/-- A row the batch has no outcome for. -/
theorem Written.get?_testTasks_ne (h : Written outcomes now db db') {k : UUID}
    (hne : ∀ o ∈ outcomes, o.testTaskId ≠ k) : db'.testTasks.get? k = db.testTasks.get? k := by
  have hnil : outcomes.filter (fun o => o.testTaskId = k) = [] := by
    rw [List.filter_eq_nil_iff]
    intro o ho hid
    exact hne o ho (by simpa using hid)
  rw [h.testTasks, get?_foldl_applyOutcome, hnil]
  cases db.testTasks.get? k <;> rfl

/-- A row after the batch is the row before it, or records an outcome of the batch for it. -/
theorem Written.get?_testTasks (h : Written outcomes now db db') {k : UUID} {t' : TestTask}
    (ht : db'.testTasks.get? k = some t') : ∃ t, db.testTasks.get? k = some t ∧
      (t' = t ∧ (∀ o ∈ outcomes, o.testTaskId ≠ k) ∨
        ∃ o ∈ outcomes, o.testTaskId = k ∧ ∃ u : TestTask, t' = u.record o) := by
  rw [h.testTasks, get?_foldl_applyOutcome] at ht
  obtain ⟨t, hrow, rfl⟩ := Option.map_eq_some_iff.1 ht
  refine ⟨t, hrow, ?_⟩
  rcases foldl_record_cases (outcomes.filter fun o => o.testTaskId = k) t with ⟨hnil, hlast⟩ | ⟨o, ho, u, hlast⟩
  · refine .inl ⟨hlast, fun o ho he => ?_⟩
    have : o ∈ outcomes.filter fun o => o.testTaskId = k := List.mem_filter.2 ⟨ho, by simpa using he⟩
    rw [hnil] at this
    cases this
  · obtain ⟨ho, hid⟩ := List.mem_filter.1 ho
    exact .inr ⟨o, ho, by simpa using hid, u, hlast⟩

end

end ApiTesting
