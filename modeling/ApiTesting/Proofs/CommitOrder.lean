import ApiTesting.Proofs.Ledger

/-! Batching and commit order. The outcomes of a run reach the database in some
partition into batches, committed in some order; along every one of them the row
of the run is a function of the outcomes committed so far, and it is finished by
the last batch that counts for it. -/

namespace ApiTesting

open Keyed

/-- One call of `write_batch`, and when it reads the clock. -/
structure WriteCall where
  outcomes : List TaskOutcome
  now : Timestamp

/-- The calls, committed one after the other. -/
def commitAll (calls : List WriteCall) (db : Database) : Except Exn Database :=
  calls.foldlM (fun db c => writeBatch c.outcomes c.now db) db

def outcomesOf (calls : List WriteCall) : List TaskOutcome := calls.flatMap WriteCall.outcomes

/-- A run none of whose tasks has been executed. -/
structure TestRun.Unstarted (db : Database) (r : TestRun) : Prop where
  status : r.status = .running
  completedAt : r.completedAt = none
  completedTasks : r.completedTasks = 0
  failedTasks : r.failedTasks = 0
  some_task : 0 < r.totalTasks
  totalTasks : db.tasksOf r.id (fun _ => true) = r.totalTasks

/-- Exactly one of the outcomes of each task of the run is terminal. -/
def OneVerdictEach (db : Database) (run : UUID) (outcomes : List TaskOutcome) : Prop :=
  ∀ t ∈ db.testTasks.rows, t.testRunId = run →
    outcomes.countP (fun o => o.testTaskId = t.id ∧ o.newStatus.terminal) = 1

/-- The row of a run after `written`, finished at the time given if at all. -/
def TestRun.progress (r : TestRun) (written : List TaskOutcome) (finishedAt : Option Timestamp) :
    TestRun :=
  { r with
    status := if finishedAt.isSome then .completed else .running
    completedAt := finishedAt
    completedTasks := tally written r.id (· = .completed)
    failedTasks := tally written r.id (· = .failed) }

section
variable {db db' : Database} {r : TestRun} {written outcomes : List TaskOutcome}
  {calls pre post : List WriteCall} {c : WriteCall} {now : Timestamp}
  {finishedAt : Option Timestamp}

theorem TestRun.Unstarted.eq_progress (h : r.Unstarted db) : r = r.progress [] none := by
  obtain ⟨hs, hat, hc, hf, -, -⟩ := h
  cases r
  simp only at hs hat hc hf
  subst hs hat hc hf
  rfl

theorem tally_append (l l' : List TaskOutcome) (run : UUID) (p : TestTaskStatus → Bool) :
    tally (l ++ l') run p = tally l run p + tally l' run p := List.countP_append

theorem tally_perm {l l' : List TaskOutcome} (h : l.Perm l') (run : UUID)
    (p : TestTaskStatus → Bool) : tally l run p = tally l' run p := h.countP_eq _

theorem tally_pos (h : counts outcomes r.id) : 0 < tally outcomes r.id TestTaskStatus.terminal := by
  obtain ⟨o, ho, hrun, ht⟩ := h
  exact List.countP_pos_iff.2 ⟨o, ho, by simp [hrun, ht]⟩

theorem counts_outcomesOf {run : UUID} :
    counts (outcomesOf calls) run ↔ ∃ c ∈ calls, counts c.outcomes run := by
  constructor
  · rintro ⟨o, ho, h⟩
    obtain ⟨c, hc, ho⟩ := List.mem_flatMap.1 ho
    exact ⟨c, hc, o, ho, h⟩
  · rintro ⟨c, hc, o, ho, h⟩
    exact ⟨o, List.mem_flatMap.2 ⟨c, hc, ho⟩, h⟩

/-- Outcomes that do not count for the run leave its row as it is. -/
theorem progress_append_of_not_counts (h : ¬ counts outcomes r.id) :
    r.progress (written ++ outcomes) finishedAt = r.progress written finishedAt := by
  have hzero : ∀ p : TestTaskStatus → Bool, (∀ s, p s → s.terminal) →
      tally (written ++ outcomes) r.id p = tally written r.id p := by
    intro p hp
    rw [tally_append, tally_eq_zero h hp, Nat.add_zero]
  simp only [TestRun.progress]
  rw [hzero _ (by simp [TestTaskStatus.terminal]), hzero _ (by simp [TestTaskStatus.terminal])]

/-- The credit of a batch to a run that is not finished. -/
theorem credit_progress (r : TestRun) (written outcomes : List TaskOutcome) (now : Timestamp) :
    (r.progress written none).credit outcomes now =
      r.progress (written ++ outcomes)
        (if r.totalTasks ≤ tally (written ++ outcomes) r.id TestTaskStatus.terminal then some now
          else none) := by
  rw [tally_terminal]
  unfold TestRun.credit TestRun.finish TestRun.advance TestRun.progress
  simp only [tally_append]
  by_cases h : r.totalTasks ≤ tally written r.id (· = .completed) + tally outcomes r.id (· = .completed) +
      (tally written r.id (· = .failed) + tally outcomes r.id (· = .failed))
  · simp [h]
  · simp [h]

/-- The calls so far have left the row of the run as `progress` says, and every
outcome still finds its task and its run. -/
structure Midway (r : TestRun) (outcomes written : List TaskOutcome)
    (finishedAt : Option Timestamp) (db : Database) : Prop where
  grounded : ∀ o ∈ outcomes, o.grounded db
  row : db.testRuns.get? r.id = some (r.progress written finishedAt)

theorem Midway.write (h : Midway r outcomes written finishedAt db)
    (hc : ∀ o ∈ c.outcomes, o ∈ outcomes) :
    ∃ db', writeBatch c.outcomes c.now db = .ok db' ∧ Written c.outcomes c.now db db' ∧
      ∀ o ∈ outcomes, o.grounded db' := by
  obtain ⟨db', hdb⟩ := writeBatch_isOk c.now fun o ho => hasParents_of_grounded (h.grounded o (hc o ho))
  have hw := written_of_writeBatch hdb
  exact ⟨db', hdb, hw, fun o ho => hw.grounded (b := .ended o) (h.grounded o ho)⟩

theorem Midway.write_uncounted (h : Midway r outcomes written finishedAt db)
    (hc : ∀ o ∈ c.outcomes, o ∈ outcomes) (hno : ¬ counts c.outcomes r.id) :
    ∃ db', writeBatch c.outcomes c.now db = .ok db' ∧
      Midway r outcomes (written ++ c.outcomes) finishedAt db' := by
  obtain ⟨db', hdb, hw, hg⟩ := h.write hc
  refine ⟨db', hdb, hg, ?_⟩
  rw [hw.uncredited _ hno, h.row, progress_append_of_not_counts hno]

theorem Midway.write_open (h : Midway r outcomes written none db) (hc : ∀ o ∈ c.outcomes, o ∈ outcomes)
    (hcount : counts c.outcomes r.id) :
    ∃ db', writeBatch c.outcomes c.now db = .ok db' ∧
      Midway r outcomes (written ++ c.outcomes)
        (if r.totalTasks ≤ tally (written ++ c.outcomes) r.id TestTaskStatus.terminal then some c.now
          else none) db' := by
  obtain ⟨db', hdb, hw, hg⟩ := h.write hc
  refine ⟨db', hdb, hg, ?_⟩
  rw [hw.credited _ _ h.row hcount, credit_progress]

theorem commitAll_cons (c : WriteCall) (calls : List WriteCall) (db : Database) :
    commitAll (c :: calls) db = (writeBatch c.outcomes c.now db).bind (commitAll calls) := rfl

theorem commitAll_append (calls calls' : List WriteCall) (db : Database) :
    commitAll (calls ++ calls') db = (commitAll calls db).bind (commitAll calls') :=
  List.foldlM_append

theorem mem_outcomesOf_cons {o : TaskOutcome} :
    o ∈ outcomesOf (c :: calls) ↔ o ∈ c.outcomes ∨ o ∈ outcomesOf calls := by
  simp [outcomesOf]

/-- As long as terminal outcomes are missing the run is not finished. -/
theorem Midway.commitAll_open (h : Midway r outcomes written none db)
    (hc : ∀ o ∈ outcomesOf calls, o ∈ outcomes)
    (hlt : tally (written ++ outcomesOf calls) r.id TestTaskStatus.terminal < r.totalTasks) :
    ∃ db', commitAll calls db = .ok db' ∧ Midway r outcomes (written ++ outcomesOf calls) none db' := by
  induction calls generalizing db written with
  | nil => exact ⟨db, rfl, by simpa [outcomesOf] using h⟩
  | cons c calls ih =>
    have hassoc : written ++ outcomesOf (c :: calls) = (written ++ c.outcomes) ++ outcomesOf calls := by
      simp [outcomesOf]
    rw [hassoc] at hlt ⊢
    have hhere : ∀ o ∈ c.outcomes, o ∈ outcomes := fun o ho => hc o (mem_outcomesOf_cons.2 (.inl ho))
    have hrest : ∀ o ∈ outcomesOf calls, o ∈ outcomes := fun o ho => hc o (mem_outcomesOf_cons.2 (.inr ho))
    obtain ⟨u, hu, hmid⟩ : ∃ u, writeBatch c.outcomes c.now db = .ok u ∧
        Midway r outcomes (written ++ c.outcomes) none u := by
      by_cases hcount : counts c.outcomes r.id
      · obtain ⟨u, hu, hmid⟩ := h.write_open hhere hcount
        rw [tally_append] at hlt
        rw [if_neg (by omega)] at hmid
        exact ⟨u, hu, hmid⟩
      · exact h.write_uncounted hhere hcount
    obtain ⟨db', hdb, hmid'⟩ := ih hmid hrest hlt
    exact ⟨db', by rw [commitAll_cons, hu]; exact hdb, hmid'⟩

/-- Calls that do not count for the run leave its row as it is. -/
theorem Midway.commitAll_uncounted (h : Midway r outcomes written finishedAt db)
    (hc : ∀ o ∈ outcomesOf calls, o ∈ outcomes) (hno : ∀ c ∈ calls, ¬ counts c.outcomes r.id) :
    ∃ db', commitAll calls db = .ok db' ∧
      Midway r outcomes (written ++ outcomesOf calls) finishedAt db' := by
  induction calls generalizing db written with
  | nil => exact ⟨db, rfl, by simpa [outcomesOf] using h⟩
  | cons c calls ih =>
    obtain ⟨u, hu, hmid⟩ := h.write_uncounted (fun o ho => hc o (mem_outcomesOf_cons.2 (.inl ho)))
      (hno c List.mem_cons_self)
    obtain ⟨db', hdb, hmid'⟩ := ih hmid (fun o ho => hc o (mem_outcomesOf_cons.2 (.inr ho)))
      fun q hq => hno q (List.mem_cons_of_mem c hq)
    refine ⟨db', by rw [commitAll_cons, hu]; exact hdb, ?_⟩
    simpa [outcomesOf] using hmid'

theorem outcomesOf_append (calls calls' : List WriteCall) :
    outcomesOf (calls ++ calls') = outcomesOf calls ++ outcomesOf calls' := List.flatMap_append

theorem mem_outcomesOf_mono (h : pre <+: calls) {o : TaskOutcome} (ho : o ∈ outcomesOf pre) :
    o ∈ outcomesOf calls := by
  obtain ⟨more, rfl⟩ := h
  rw [outcomesOf_append]
  exact List.mem_append_left _ ho

/-- The call that brings the last terminal outcome finishes the run. -/
theorem Midway.commitAll_closing (h : Midway r outcomes [] none db)
    (hc : ∀ o ∈ outcomesOf (pre ++ c :: post), o ∈ outcomes) (hcount : counts c.outcomes r.id)
    (hpost : ∀ q ∈ post, ¬ counts q.outcomes r.id)
    (hbefore : tally (outcomesOf pre) r.id TestTaskStatus.terminal < r.totalTasks)
    (hlast : r.totalTasks ≤ tally (outcomesOf pre ++ c.outcomes) r.id TestTaskStatus.terminal) :
    ∃ db', commitAll (pre ++ c :: post) db = .ok db' ∧
      Midway r outcomes (outcomesOf (pre ++ c :: post)) (some c.now) db' := by
  have hsplit : outcomesOf (pre ++ c :: post) = outcomesOf pre ++ c.outcomes ++ outcomesOf post := by
    simp [outcomesOf]
  rw [hsplit] at hc ⊢
  have hpreOutcomes : ∀ o ∈ outcomesOf pre, o ∈ outcomes := fun o ho => hc o (by simp [ho])
  obtain ⟨u, hu, hpre⟩ := h.commitAll_open hpreOutcomes hbefore
  obtain ⟨v, hv, hclosed⟩ := hpre.write_open (c := c) (fun o ho => hc o (by simp [ho])) hcount
  rw [List.nil_append, if_pos hlast] at hclosed
  obtain ⟨db', hdb, hend⟩ := hclosed.commitAll_uncounted (fun o ho => hc o (by simp [ho])) hpost
  refine ⟨db', ?_, hend⟩
  rw [commitAll_append, hu]
  change commitAll (c :: post) u = _
  rw [commitAll_cons, hv]
  exact hdb

/-- Every state on the way: the run is open up to the call that brings the last
terminal outcome, and finished with the time of that call from there on. -/
theorem Midway.commitAll_prefix (h : Midway r outcomes [] none db)
    (hc : ∀ o ∈ outcomesOf (pre ++ c :: post), o ∈ outcomes) (hcount : counts c.outcomes r.id)
    (hpost : ∀ q ∈ post, ¬ counts q.outcomes r.id)
    (hlast : tally (outcomesOf pre ++ c.outcomes) r.id TestTaskStatus.terminal = r.totalTasks)
    {done : List WriteCall} (hdone : done <+: pre ++ c :: post) :
    ∃ db', commitAll done db = .ok db' ∧ db'.testRuns.get? r.id = some (r.progress (outcomesOf done)
      (if pre.length < done.length then some c.now else none)) := by
  have hsub : ∀ o ∈ outcomesOf done, o ∈ outcomes := fun o ho => hc o (mem_outcomesOf_mono hdone ho)
  have hbefore : ∀ done, done <+: pre →
      tally (outcomesOf done) r.id TestTaskStatus.terminal < r.totalTasks := by
    rintro done ⟨more, rfl⟩
    have hpos := tally_pos hcount
    rw [outcomesOf_append, tally_append, tally_append] at hlast
    omega
  by_cases hlen : done.length ≤ pre.length
  · have hpre : done <+: pre :=
      List.prefix_of_prefix_length_le hdone (List.prefix_append _ _) hlen
    obtain ⟨db', hdb, hmid⟩ := h.commitAll_open hsub (hbefore done hpre)
    rw [if_neg (by omega)]
    exact ⟨db', hdb, hmid.row⟩
  · have hpre : pre <+: done :=
      List.prefix_of_prefix_length_le (List.prefix_append _ _) hdone (by omega)
    obtain ⟨tail, rfl⟩ := hpre
    rw [List.prefix_append_right_inj] at hdone
    rcases tail with _ | ⟨q, post'⟩
    · simp at hlen
    obtain ⟨rfl, hpost'⟩ := List.cons_prefix_cons.1 hdone
    obtain ⟨db', hdb, hmid⟩ := h.commitAll_closing hsub hcount
      (fun p hp => hpost p (hpost'.subset hp)) (hbefore pre (List.prefix_refl _)) hlast.ge
    rw [if_pos (by simp)]
    exact ⟨db', hdb, hmid.row⟩

/-- The one terminal outcome of a task is credited to the run of the task. -/
theorem countP_verdict {run : UUID} (hg : ∀ o ∈ outcomes, o.grounded db)
    (h : OneVerdictEach db run outcomes) {t : TestTask} (ht : t ∈ db.testTasks.rows)
    (hrun : t.testRunId = run) :
    outcomes.countP (fun o => o.testTaskId = t.id ∧ o.testRunId = run ∧ o.newStatus.terminal) = 1 := by
  rw [← h t ht hrun]
  refine List.countP_congr fun o ho => ?_
  obtain ⟨⟨u, hu, hurun⟩, -, -⟩ := hg o ho
  -- the row of the outcome is the row of the task, so its run is that of the task
  have hsame : o.testTaskId = t.id → o.testRunId = run := by
    intro he
    rw [he, Table.get?_eq_some_iff.2 ⟨ht, rfl⟩] at hu
    rw [← hurun, ← Option.some.inj hu, hrun]
  simp only [decide_eq_true_eq]
  constructor
  · rintro ⟨hid, -, hterm⟩
    exact ⟨hid, hterm⟩
  · rintro ⟨hid, hterm⟩
    exact ⟨hid, hsame hid, hterm⟩

/-- No outcome is credited to the run for what is no task of it. -/
theorem countP_verdict_of_no_task {run k : UUID} (hg : ∀ o ∈ outcomes, o.grounded db)
    (hk : ¬ ∃ t ∈ db.testTasks.rows, t.testRunId = run ∧ t.id = k) :
    outcomes.countP (fun o => o.testTaskId = k ∧ o.testRunId = run ∧ o.newStatus.terminal) = 0 := by
  rw [List.countP_eq_zero]
  intro o ho hc
  obtain ⟨⟨u, hu, hurun⟩, -, -⟩ := hg o ho
  obtain ⟨hto, hrun, -⟩ := of_decide_eq_true hc
  obtain ⟨hrow, hid⟩ := Table.get?_eq_some_iff.1 hu
  exact hk ⟨u, hrow, hurun.trans hrun, hid.trans hto⟩

/-- The terminal outcomes of the run are as many as its tasks. -/
theorem tally_eq_tasksOf {run : UUID} (hg : ∀ o ∈ outcomes, o.grounded db)
    (h : OneVerdictEach db run outcomes) :
    tally outcomes run TestTaskStatus.terminal = db.tasksOf run fun _ => true := by
  have hperm : ((outcomes.filter fun o => o.testRunId = run ∧ o.newStatus.terminal).map
      TaskOutcome.testTaskId).Perm
      ((db.testTasks.rows.filter fun t => t.testRunId = run).map TestTask.id) := by
    rw [List.perm_iff_count]
    intro k
    have hnd : ((db.testTasks.rows.filter fun t => t.testRunId = run).map TestTask.id).Nodup :=
      (db.testTasks.filter fun t => t.testRunId = run).nodup
    have hcount : ((outcomes.filter fun o => o.testRunId = run ∧ o.newStatus.terminal).map
        TaskOutcome.testTaskId).count k =
        outcomes.countP fun o => o.testTaskId = k ∧ o.testRunId = run ∧ o.newStatus.terminal := by
      rw [List.count, List.countP_map, List.countP_filter]
      refine List.countP_congr fun o _ => ?_
      simp
    rw [hcount]
    by_cases hk : ∃ t ∈ db.testTasks.rows, t.testRunId = run ∧ t.id = k
    · obtain ⟨t, ht, hrun, rfl⟩ := hk
      have hmem : t.id ∈ (db.testTasks.rows.filter fun t => t.testRunId = run).map TestTask.id :=
        List.mem_map_of_mem (List.mem_filter.2 ⟨ht, by simpa using hrun⟩)
      rw [List.count_eq_one_of_mem hnd hmem, countP_verdict hg h ht hrun]
    · have hnot : k ∉ (db.testTasks.rows.filter fun t => t.testRunId = run).map TestTask.id := by
        intro hmem
        obtain ⟨t, ht, hid⟩ := List.mem_map.1 hmem
        obtain ⟨ht, hrun⟩ := List.mem_filter.1 ht
        exact hk ⟨t, ht, by simpa using hrun, hid⟩
      rw [List.count_eq_zero_of_not_mem hnot, countP_verdict_of_no_task hg hk]
  have hlen := hperm.length_eq
  rw [List.length_map, List.length_map, ← List.countP_eq_length_filter,
    ← List.countP_eq_length_filter] at hlen
  simpa [tally, Database.tasksOf] using hlen

/-- The last element with a property. -/
theorem exists_last {α : Type} {p : α → Prop} {l : List α} (h : ∃ a ∈ l, p a) :
    ∃ pre a post, l = pre ++ a :: post ∧ p a ∧ ∀ b ∈ post, ¬ p b := by
  induction l with
  | nil =>
    obtain ⟨a, ha, -⟩ := h
    cases ha
  | cons b l ih =>
    by_cases hl : ∃ a ∈ l, p a
    · obtain ⟨pre, a, post, rfl, ha, hpost⟩ := ih hl
      exact ⟨b :: pre, a, post, rfl, ha, hpost⟩
    · obtain ⟨a, ha, hpa⟩ := h
      rcases List.mem_cons.1 ha with rfl | ha
      · exact ⟨[], a, l, rfl, hpa, fun q hq hp => hl ⟨q, hq, hp⟩⟩
      · exact absurd ⟨a, ha, hpa⟩ hl

end

/-- However the outcomes of the tasks are cut into calls and in whatever order the
calls commit: all of them commit, after any number of them the row of the run is
a function of the outcomes written so far, and the run is finished, with the time
of that call, from the last call on that has a terminal outcome of it. -/
theorem progress_of_commitAll {db : Database} {outcomes : List TaskOutcome} {calls : List WriteCall}
    {r : TestRun} (hgrounded : ∀ o ∈ outcomes, o.grounded db) (hr : r ∈ db.testRuns.rows)
    (hnew : r.Unstarted db) (hverdict : OneVerdictEach db r.id outcomes)
    (hperm : (outcomesOf calls).Perm outcomes) :
    (∃ pre c post, calls = pre ++ c :: post ∧ counts c.outcomes r.id ∧
      (∀ q ∈ post, ¬ counts q.outcomes r.id) ∧
      ∀ done, done <+: calls → ∃ db', commitAll done db = .ok db' ∧
        db'.testRuns.get? r.id = some (r.progress (outcomesOf done)
          (if pre.length < done.length then some c.now else none))) ∧
    ∃ db' row, commitAll calls db = .ok db' ∧ db'.testRuns.get? r.id = some row ∧
      row.status = .completed ∧ row.completedTasks = tally outcomes r.id (· = .completed) ∧
      row.failedTasks = tally outcomes r.id (· = .failed) := by
  have htotal : tally (outcomesOf calls) r.id TestTaskStatus.terminal = r.totalTasks := by
    rw [tally_perm hperm, tally_eq_tasksOf hgrounded hverdict, hnew.totalTasks]
  have hmem : ∀ {o}, o ∈ outcomesOf calls → o ∈ outcomes := fun ho => hperm.mem_iff.1 ho
  have hstart : Midway r outcomes [] none db :=
    ⟨hgrounded, by rw [← hnew.eq_progress]; exact Table.get?_eq_some_iff.2 ⟨hr, rfl⟩⟩
  obtain ⟨pre, c, post, hcalls, hcount, hpost⟩ :
      ∃ pre c post, calls = pre ++ c :: post ∧ counts c.outcomes r.id ∧
        ∀ q ∈ post, ¬ counts q.outcomes r.id := by
    refine exists_last (counts_outcomesOf.1 ?_)
    by_contra hno
    rw [tally_eq_zero hno fun s hs => hs] at htotal
    exact absurd htotal.symm hnew.some_task.ne'
  subst hcalls
  have hrest : tally (outcomesOf post) r.id TestTaskStatus.terminal = 0 := by
    refine tally_eq_zero (fun hc => ?_) fun s hs => hs
    obtain ⟨q, hq, hqc⟩ := counts_outcomesOf.1 hc
    exact hpost q hq hqc
  have hlast : tally (outcomesOf pre ++ c.outcomes) r.id TestTaskStatus.terminal = r.totalTasks := by
    have hsplit : outcomesOf (pre ++ c :: post) = outcomesOf pre ++ c.outcomes ++ outcomesOf post := by
      simp [outcomesOf]
    rw [hsplit, tally_append, hrest, Nat.add_zero] at htotal
    exact htotal
  have hdone : ∀ done, done <+: pre ++ c :: post → ∃ db', commitAll done db = .ok db' ∧
      db'.testRuns.get? r.id = some (r.progress (outcomesOf done)
        (if pre.length < done.length then some c.now else none)) :=
    fun done hprefix => hstart.commitAll_prefix (fun _ => hmem) hcount hpost hlast hprefix
  refine ⟨⟨pre, c, post, rfl, hcount, hpost, hdone⟩, ?_⟩
  obtain ⟨db', hdb, hrow⟩ := hdone _ (List.prefix_refl _)
  refine ⟨db', _, hdb, hrow, ?_, ?_, ?_⟩
  · simp [TestRun.progress]
  · simp only [TestRun.progress]
    exact tally_perm hperm _ _
  · simp only [TestRun.progress]
    exact tally_perm hperm _ _

/-- The outcome of an attempt without a response. -/
def bareOutcome (task run : UUID) (attemptNumber : ℕ) (status : TestTaskStatus) : TaskOutcome where
  testTaskId := task
  testRunId := run
  attemptNumber := attemptNumber
  newStatus := status
  statusCode := none
  latencyMs := 5
  responseHeaders := none
  responseBody := none
  assertionsPassed := none
  errorMessage := none
  executedByWorkerId := 0
  retryCount := attemptNumber
  nextRetryAt := none

/-- The first task fails, is retried and completes; the second fails for good. -/
def retriedAndFailed : List TaskOutcome :=
  [bareOutcome 0 0 1 .retrying, bareOutcome 0 0 2 .completed, bareOutcome 1 0 4 .failed]

/-- The same in two batches, the later attempt committed first. -/
def laterFirst : List WriteCall :=
  [⟨[bareOutcome 1 0 4 .failed, bareOutcome 0 0 2 .completed], 7⟩, ⟨[bareOutcome 0 0 1 .retrying], 9⟩]

theorem progress_laterFirst : ∃ db' row, commitAll laterFirst (plainRun 2 3) = .ok db' ∧
    db'.testRuns.get? 0 = some row ∧ row.status = .completed ∧
    row.completedTasks = tally retriedAndFailed 0 (· = .completed) ∧
    row.failedTasks = tally retriedAndFailed 0 (· = .failed) := by
  refine (@progress_of_commitAll (plainRun 2 3) retriedAndFailed laterFirst (startedRun 0 2)
    ?_ (List.mem_singleton_self _) ?_ ?_ ?_).2
  · intro o ho
    simp only [retriedAndFailed, List.mem_cons, List.not_mem_nil, or_false] at ho
    rcases ho with rfl | rfl | rfl
    · exact ⟨⟨pendingTask 0 0 0 0 3, rfl, rfl⟩, by decide, .inr (.inr rfl)⟩
    · exact ⟨⟨pendingTask 0 0 0 0 3, rfl, rfl⟩, by decide, .inl rfl⟩
    · exact ⟨⟨pendingTask 1 0 1 1 3, rfl, rfl⟩, by decide, .inr (.inl rfl)⟩
  · exact ⟨rfl, rfl, rfl, rfl, by decide, by decide⟩
  · unfold OneVerdictEach
    decide
  · exact List.reverse_perm retriedAndFailed

end ApiTesting
