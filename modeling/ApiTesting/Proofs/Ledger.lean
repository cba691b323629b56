import ApiTesting.Proofs.Attempts
import ApiTesting.Proofs.Commits
import ApiTesting.Proofs.Launch

/-! The ledger of a run: its counters against the statuses of its tasks. The
counters are increments and the statuses are overwritten, so the two agree just
as long as no outcome is written over a row that is already terminal. -/

namespace ApiTesting

open Keyed Machine

structure Balanced (db : Database) (r : TestRun) : Prop where
  completed : r.completedTasks = db.tasksOf r.id (· = .completed)
  failed : r.failedTasks = db.tasksOf r.id (· = .failed)
  status : r.status = .completed ↔ db.tasksOf r.id TestTaskStatus.terminal = r.totalTasks

def Ledger (s : System) : Prop := ∀ r ∈ s.stores.db.testRuns.rows, Balanced s.stores.db r

/-- Every outcome of the batch with a status in `q` lands on a row that is not
terminal when its turn comes. -/
def landsOpen (q : TestTaskStatus → Bool) (db : Database) : List TaskOutcome → Bool
  | [] => true
  | o :: os =>
    (!q o.newStatus || (db.testTasks.get? o.testTaskId).all (fun t => !t.status.terminal)) &&
      landsOpen q (applyOutcome db o) os

/-- The step commits no outcome with a status in `q` over a terminal row. -/
def commitsOpen (q : TestTaskStatus → Bool) (s : System) (a : Action) : Bool :=
  match a with
  | .write w _ call =>
    match s.workers[w]? with
    | some (.writing b) => !call.tookEffect || landsOpen q s.stores.db b.outcomes
    | _ => true
  | _ => true

/-- The step writes no outcome over a terminal row. -/
def noOverwrite : System → Action → Bool := commitsOpen fun _ => true

/-! One outcome, and the outcomes of a batch one after the other. -/

/-- The task an outcome is written to is a task of the run it is counted for. -/
def TaskOutcome.grounded (db : Database) (o : TaskOutcome) : Prop :=
  (∃ t, db.testTasks.get? o.testTaskId = some t ∧ t.testRunId = o.testRunId) ∧
    o.testRunId ∈ db.testRuns.keys ∧
    (o.newStatus = .completed ∨ o.newStatus = .failed ∨ o.newStatus = .retrying)

section
variable {db : Database} {outcomes : List TaskOutcome} {o : TaskOutcome}

theorem grounded_applyOutcome (h : o.grounded db) (q : TaskOutcome) :
    o.grounded (applyOutcome db q) := by
  obtain ⟨⟨t, ht, hrun⟩, hkey, hs⟩ := h
  refine ⟨?_, hkey, hs⟩
  rw [get?_applyOutcome]
  split
  · rename_i he
    rw [← he, ht]
    exact ⟨t.record q, rfl, hrun⟩
  · exact ⟨t, ht, hrun⟩

theorem tasksOf_applyOutcome {t : TestTask} (ht : db.testTasks.get? o.testTaskId = some t)
    (hrun : t.testRunId = o.testRunId) (run : UUID) (p : TestTaskStatus → Bool) :
    (applyOutcome db o).tasksOf run p + (if o.testRunId = run ∧ p t.status then 1 else 0) =
      db.tasksOf run p + (if o.testRunId = run ∧ p o.newStatus then 1 else 0) := by
  have := Table.countP_modify (fun t : TestTask => t.record o) (fun _ => rfl) ht
    fun t => decide (t.testRunId = run ∧ p t.status)
  simpa [Database.tasksOf, applyOutcome, TestTask.record, hrun] using this

theorem tasksOf_foldl (hg : ∀ o ∈ outcomes, o.grounded db) (h : landsOpen (fun _ => true) db outcomes) (run : UUID)
    {p : TestTaskStatus → Bool} (hp : ∀ s, p s → s.terminal) :
    (outcomes.foldl applyOutcome db).tasksOf run p = db.tasksOf run p + tally outcomes run p := by
  induction outcomes generalizing db with
  | nil => simp [tally]
  | cons o outcomes ih =>
    simp only [landsOpen, Bool.not_true, Bool.false_or, Bool.and_eq_true] at h
    obtain ⟨⟨t, ht, hrun⟩, -, -⟩ := hg o (by simp)
    have hopen : t.status.terminal = false := by simpa [ht] using h.1
    have hnot : p t.status = false := by
      by_contra hpt
      rw [hp _ (by simpa using hpt)] at hopen
      cases hopen
    have hone := tasksOf_applyOutcome ht hrun run p
    have hrest := ih (fun q hq => grounded_applyOutcome (hg q (List.mem_cons_of_mem _ hq)) o) h.2
    rw [List.foldl_cons, hrest, tally, tally, List.countP_cons]
    simp only [hnot, decide_eq_true_eq] at hone ⊢
    simp at hone
    omega

/-- Whatever it lands on, a batch adds at most what it counts to the terminal tasks. -/
theorem tasksOf_foldl_le (hg : ∀ o ∈ outcomes, o.grounded db) (run : UUID) :
    (outcomes.foldl applyOutcome db).tasksOf run TestTaskStatus.terminal ≤
      db.tasksOf run TestTaskStatus.terminal + tally outcomes run TestTaskStatus.terminal := by
  induction outcomes generalizing db with
  | nil => simp [tally]
  | cons o outcomes ih =>
    obtain ⟨⟨t, ht, hrun⟩, -, -⟩ := hg o (by simp)
    have hone := tasksOf_applyOutcome ht hrun run TestTaskStatus.terminal
    have hrest := ih fun q hq => grounded_applyOutcome (hg q (List.mem_cons_of_mem _ hq)) o
    rw [List.foldl_cons]
    simp only [tally, List.countP_cons, decide_eq_true_eq] at hrest ⊢
    omega

/-- An outcome over a terminal row leaves fewer terminal tasks than were counted. -/
theorem exists_tasksOf_foldl_lt (hg : ∀ o ∈ outcomes, o.grounded db)
    (h : landsOpen (fun _ => true) db outcomes = false) : ∃ run, run ∈ db.testRuns.keys ∧
      (outcomes.foldl applyOutcome db).tasksOf run TestTaskStatus.terminal <
        db.tasksOf run TestTaskStatus.terminal + tally outcomes run TestTaskStatus.terminal := by
  induction outcomes generalizing db with
  | nil => cases h
  | cons o outcomes ih =>
    obtain ⟨⟨t, ht, hrun⟩, hkey, -⟩ := hg o (by simp)
    have hg' : ∀ q ∈ outcomes, q.grounded (applyOutcome db o) :=
      fun q hq => grounded_applyOutcome (hg q (List.mem_cons_of_mem _ hq)) o
    rw [List.foldl_cons]
    simp only [landsOpen, Bool.not_true, Bool.false_or, Bool.and_eq_false_iff] at h
    rcases h with h | h
    · have hterm : t.status.terminal = true := by simpa [ht] using h
      have hone := tasksOf_applyOutcome ht hrun o.testRunId TestTaskStatus.terminal
      have hrest := tasksOf_foldl_le hg' o.testRunId
      refine ⟨o.testRunId, hkey, ?_⟩
      simp only [tally, List.countP_cons, decide_eq_true_eq, hterm, and_self, if_true] at hone hrest ⊢
      omega
    · obtain ⟨run, hrunkey, hlt⟩ := ih hg' h
      have hone := tasksOf_applyOutcome ht hrun run TestTaskStatus.terminal
      refine ⟨run, hrunkey, ?_⟩
      simp only [tally, List.countP_cons, decide_eq_true_eq] at hlt ⊢
      omega

theorem hasParents_of_grounded (h : o.grounded db) : hasParents db o := by
  obtain ⟨⟨t, ht, -⟩, hkey, -⟩ := h
  rw [hasParents, ht, Table.get?_isSome_iff.2 hkey]
  rfl

end

/-! What every reachable state satisfies. -/

def Attempt.grounded (db : Database) : Attempt → Prop
  | .running v => (∃ t, db.testTasks.get? v.testTask.id = some t ∧ t.testRunId = v.testRun.id) ∧
      v.testRun.id ∈ db.testRuns.keys
  | .ended o => o.grounded db

/-- The status of a run says whether its counters have reached the total. -/
def TestRun.posted (r : TestRun) : Prop :=
  (r.status = .running ∨ r.status = .completed) ∧
    (r.status = .completed ↔ r.totalTasks ≤ r.completedTasks + r.failedTasks)

structure Books (s : System) : Prop where
  posted : ∀ r ∈ s.stores.db.testRuns.rows, r.posted
  total : ∀ r ∈ s.stores.db.testRuns.rows,
    s.stores.db.tasksOf r.id (fun _ => true) = r.totalTasks
  grounded : ∀ a ∈ s.attempts, a.grounded s.stores.db

section
variable {lib : Libraries} {rateLimiter : Bool} {s₀ s s' : System} {a : Action}

theorem Fresh.books (h : Fresh s) : Books s := by
  refine ⟨?_, fun r hr => (h.running r hr).2.2.2.2, ?_⟩
  · intro r hr
    obtain ⟨hs, hc, hf, ht, -⟩ := h.running r hr
    refine ⟨.inl hs, ?_⟩
    rw [hs, hc, hf]
    simp
    omega
  · intro b hb
    rw [attempts_eq_zero h.idle] at hb
    cases hb

theorem tasksOf_eq_zero (h : Fresh s) (run : UUID) {p : TestTaskStatus → Bool}
    (hp : p .pending = false) : s.stores.db.tasksOf run p = 0 := by
  rw [Database.tasksOf, List.countP_eq_zero]
  intro t ht hc
  obtain ⟨-, hs⟩ := of_decide_eq_true hc
  rw [(h.waiting t ht).1, hp] at hs
  cases hs

theorem Fresh.ledger (h : Fresh s) : Ledger s := by
  intro r hr
  obtain ⟨hs, hc, hf, ht, -⟩ := h.running r hr
  refine ⟨?_, ?_, ?_⟩
  · rw [hc, tasksOf_eq_zero h r.id rfl]
  · rw [hf, tasksOf_eq_zero h r.id rfl]
  · rw [hs, tasksOf_eq_zero h r.id rfl]
    simp
    omega

section
variable {outcomes : List TaskOutcome} {now : Timestamp} {db db' : Database}

theorem posted_credit {r : TestRun} (h : r.posted) : (r.credit outcomes now).posted := by
  unfold TestRun.credit TestRun.finish TestRun.posted at *
  split <;> simp only [TestRun.advance] at * <;> grind

theorem Written.tasksOf_all (h : Written outcomes now db db') (hg : ∀ o ∈ outcomes, o.grounded db)
    (run : UUID) : db'.tasksOf run (fun _ => true) = db.tasksOf run (fun _ => true) := by
  rw [Database.tasksOf, h.testTasks]
  clear h
  induction outcomes generalizing db with
  | nil => rfl
  | cons o outcomes ih =>
    obtain ⟨⟨t, ht, hrun⟩, -⟩ := hg o (by simp)
    rw [List.foldl_cons, ih fun q hq => grounded_applyOutcome (hg q (List.mem_cons_of_mem _ hq)) o]
    have := tasksOf_applyOutcome ht hrun run fun _ => true
    omega

theorem Written.grounded (h : Written outcomes now db db') {b : Attempt} (hb : b.grounded db) :
    b.grounded db' := by
  have hrow : ∀ k run, (∃ t, db.testTasks.get? k = some t ∧ t.testRunId = run) →
      ∃ t, db'.testTasks.get? k = some t ∧ t.testRunId = run := by
    rintro k run ⟨t, ht, hrun⟩
    have hplan := map_plan_foldl_applyOutcome db outcomes k
    rw [← h.testTasks, ht] at hplan
    obtain ⟨t', ht', hplan⟩ := Option.map_eq_some_iff.1 hplan
    have hsame : t'.plan.testRunId = t.plan.testRunId := by rw [hplan]
    exact ⟨t', ht', hsame.trans hrun⟩
  cases b with
  | running v => exact ⟨hrow _ _ hb.1, h.runKeys ▸ hb.2⟩
  | ended o => exact ⟨hrow _ _ hb.1, h.runKeys ▸ hb.2.1, hb.2.2⟩

end

theorem Attempt.grounded_of_concludes {db : Database} {v : TaskView} {write : RedisWrite}
    {o : TaskOutcome} (h : Concludes v write o) (hv : (Attempt.running v).grounded db) :
    (Attempt.ended o).grounded db := by
  refine ⟨?_, ?_, ?_⟩
  · rw [h.testTaskId, h.testRunId]
    exact hv.1
  · rw [h.testRunId]
    exact hv.2
  · cases h.verdict with
    | completed _ hs => exact .inl hs
    | retrying _ hs => exact .inr (.inr hs)
    | failed _ hs => exact .inr (.inl hs)

theorem Attempt.grounded_of_loadTask {db : Database} {t : UUID} {v : TaskView}
    (h : loadTask db t = .ok v) : (Attempt.running v).grounded db := by
  obtain ⟨ht, -, hr⟩ := loadTask_eq_ok_iff.1 h
  obtain ⟨hrow, hrun⟩ := Table.get?_eq_some_iff.1 hr
  have hid := (Table.get?_eq_some_iff.1 ht).2
  exact ⟨⟨v.testTask, by rwa [hid], hrun.symm⟩, List.mem_map_of_mem hrow⟩

/-- A write whose call takes effect commits its batch. -/
theorem Books.written (h : Books s) {w : WorkerId} {b : Batch} (hw : s.workers[w]? = some (.writing b))
    {call : Call} (hcall : call.tookEffect) (now : Timestamp) :
    Written b.outcomes now s.stores.db (runWrite b.outcomes now call s.stores.db).2 ∧
      ∀ o ∈ b.outcomes, o.grounded s.stores.db := by
  have hg : ∀ o ∈ b.outcomes, o.grounded s.stores.db := by
    intro o ho
    refine h.grounded (.ended o) (Pool.mem_held.2 ⟨_, List.mem_of_getElem? hw, ?_⟩)
    exact List.mem_map_of_mem ho
  refine ⟨?_, hg⟩
  obtain ⟨u, hu⟩ := writeBatch_isOk now fun o ho => hasParents_of_grounded (hg o ho)
  have hdb : (runWrite b.outcomes now call s.stores.db).2 = u := by
    cases call with
    | raisedBefore => cases hcall
    | _ => simp [runWrite, hu]
  rw [hdb]
  exact written_of_writeBatch hu

theorem Books.step (h : Books s) (hm : Move lib rateLimiter s a s') : Books s' := by
  have hsame : s'.stores.db = s.stores.db → (∀ b ∈ s'.attempts, b.grounded s.stores.db) → Books s' := by
    intro hdb hg
    refine ⟨?_, ?_, ?_⟩
    · rw [hdb]
      exact h.posted
    · rw [hdb]
      exact h.total
    · rw [hdb]
      exact hg
  cases advance_of_move hm with
  | quiet hdb hatt => exact hsame hdb (hatt ▸ h.grounded)
  | started _ _ _ _ hload hdb hatt =>
    refine hsame hdb fun b hb => ?_
    rw [hatt] at hb
    rcases Multiset.mem_cons.1 hb with rfl | hb
    · exact Attempt.grounded_of_loadTask hload
    · exact h.grounded b hb
  | settled _ _ _ _ hj hdb hs hs' =>
    refine hsame hdb fun b hb => ?_
    have hg := h.grounded
    rw [hs] at hg
    rw [hs'] at hb
    rcases Multiset.mem_cons.1 hb with rfl | hb
    · exact Attempt.grounded_of_concludes (judgeReply_concludes hj) (hg _ (Multiset.mem_cons_self _ _))
    · exact hg b (Multiset.mem_cons_of_mem hb)
  | lost gone hdb hatt =>
    refine hsame hdb fun b hb => h.grounded b ?_
    rw [hatt]
    exact Multiset.mem_add.2 (.inr hb)
  | @committed w now call b _ hw hcall hok hatt =>
    have hwr := written_of_writeBatch hok
    have hg := (h.written hw hcall now).2
    have hrow : ∀ r' ∈ s'.stores.db.testRuns.rows, ∃ r ∈ s.stores.db.testRuns.rows,
        r'.id = r.id ∧ r'.totalTasks = r.totalTasks ∧ (r' = r ∨ r' = r.credit b.outcomes now) := by
      intro r' hr'
      have hkey : r'.id ∈ s.stores.db.testRuns.keys := hwr.runKeys ▸ List.mem_map_of_mem hr'
      obtain ⟨r, hr⟩ := Option.isSome_iff_exists.1 (Table.get?_isSome_iff.2 hkey)
      obtain ⟨q, hq, hid, htot, -, -, hcase⟩ := hwr.get?_testRuns hr
      have : q = r' := by
        have := Table.get?_eq_some_iff.2 ⟨hr', rfl⟩
        rw [hq] at this
        exact Option.some.inj this
      subst this
      exact ⟨r, (Table.get?_eq_some_iff.1 hr).1, hid, htot, hcase⟩
    refine ⟨?_, ?_, ?_⟩
    · intro r' hr'
      obtain ⟨r, hr, -, -, rfl | rfl⟩ := hrow r' hr'
      · exact h.posted _ hr
      · exact posted_credit (h.posted r hr)
    · intro r' hr'
      obtain ⟨r, hr, hid, htot, -⟩ := hrow r' hr'
      rw [hid, htot, hwr.tasksOf_all hg]
      exact h.total r hr
    · intro b' hb'
      refine hwr.grounded (h.grounded b' ?_)
      rw [hatt]
      exact Multiset.mem_add.2 (.inr hb')

/-- A status is terminal in one of two ways. -/
theorem countP_terminal {ρ : Type} (l : List ρ) (q : ρ → Prop) [DecidablePred q]
    (status : ρ → TestTaskStatus) :
    l.countP (fun x => q x ∧ (status x).terminal) =
      l.countP (fun x => q x ∧ decide (status x = .completed)) +
        l.countP (fun x => q x ∧ decide (status x = .failed)) := by
  induction l with
  | nil => rfl
  | cons x l ih =>
    simp only [List.countP_cons, ih]
    cases status x <;> by_cases hq : q x <;> simp [hq, TestTaskStatus.terminal] <;> omega

theorem tasksOf_terminal (db : Database) (run : UUID) :
    db.tasksOf run TestTaskStatus.terminal =
      db.tasksOf run (· = .completed) + db.tasksOf run (· = .failed) :=
  countP_terminal _ _ _

theorem tally_terminal (outcomes : List TaskOutcome) (run : UUID) :
    tally outcomes run TestTaskStatus.terminal =
      tally outcomes run (· = .completed) + tally outcomes run (· = .failed) :=
  countP_terminal _ _ _

theorem Database.tasksOf_le (db : Database) (run : UUID) (p : TestTaskStatus → Bool) :
    db.tasksOf run p ≤ db.tasksOf run fun _ => true := by
  refine List.countP_mono_left fun t _ h => ?_
  obtain ⟨hrun, -⟩ := of_decide_eq_true h
  simpa using hrun

/-- One step keeps the ledger just when it overwrites no terminal row. -/
theorem ledger_step_iff (hb : Books s) (hl : Ledger s) (hm : Move lib rateLimiter s a s') :
    Ledger s' ↔ noOverwrite s a := by
  have hb' := hb.step hm
  rcases db_of_move hm with ⟨w, now, call, b, rfl, hw, hdb⟩ | ⟨hno, hdb⟩
  · simp only [noOverwrite, commitsOpen, hw]
    by_cases hcall : call.tookEffect
    swap
    · cases call with
      | raisedBefore =>
        have : s'.stores.db = s.stores.db := hdb
        simpa [Ledger, this, Call.tookEffect] using hl
      | _ => simp [Call.tookEffect] at hcall
    obtain ⟨hwr, hg⟩ := hb.written hw hcall now
    rw [← hdb] at hwr
    have htasks : ∀ run p, s'.stores.db.tasksOf run p =
        (b.outcomes.foldl applyOutcome s.stores.db).tasksOf run p := by
      intro run p
      rw [Database.tasksOf, hwr.testTasks]
      rfl
    simp only [hcall, Bool.not_true, Bool.false_or]
    constructor
    · intro hl'
      by_contra hno
      obtain ⟨run, hkey, hlt⟩ := exists_tasksOf_foldl_lt hg (by simpa using hno)
      obtain ⟨r, hr⟩ := Option.isSome_iff_exists.1 (Table.get?_isSome_iff.2 hkey)
      obtain ⟨r', hr', hid, -, hc, hf, -⟩ := hwr.get?_testRuns hr
      obtain ⟨hrow, rfl⟩ := Table.get?_eq_some_iff.1 hr
      obtain ⟨hc₀, hf₀, -⟩ := hl r hrow
      obtain ⟨hc', hf', -⟩ := hl' r' (Table.get?_eq_some_iff.1 hr').1
      rw [hid, htasks] at hc' hf'
      rw [tasksOf_terminal, tasksOf_terminal, tally_terminal] at hlt
      omega
    · intro hopen r' hr'
      have hkey : r'.id ∈ s.stores.db.testRuns.keys := hwr.runKeys ▸ List.mem_map_of_mem hr'
      obtain ⟨r, hr⟩ := Option.isSome_iff_exists.1 (Table.get?_isSome_iff.2 hkey)
      obtain ⟨q, hq, -, htot, hc, hf, -⟩ := hwr.get?_testRuns hr
      obtain rfl : q = r' := by
        have := Table.get?_eq_some_iff.2 ⟨hr', rfl⟩
        rw [hq] at this
        exact Option.some.inj this
      obtain ⟨hrow, hid⟩ := Table.get?_eq_some_iff.1 hr
      obtain ⟨hc₀, hf₀, -⟩ := hl r hrow
      rw [hid] at hc₀ hf₀
      have hcompleted : q.completedTasks = s'.stores.db.tasksOf q.id (· = .completed) := by
        rw [htasks, tasksOf_foldl hg hopen q.id (by simp [TestTaskStatus.terminal])]
        omega
      have hfailed : q.failedTasks = s'.stores.db.tasksOf q.id (· = .failed) := by
        rw [htasks, tasksOf_foldl hg hopen q.id (by simp [TestTaskStatus.terminal])]
        omega
      refine ⟨hcompleted, hfailed, ?_⟩
      have hle := s'.stores.db.tasksOf_le q.id TestTaskStatus.terminal
      rw [(hb'.posted q hr').2, hcompleted, hfailed, ← tasksOf_terminal]
      rw [hb'.total q hr'] at hle
      omega
  · have hno' : noOverwrite s a = true := by
      cases a with
      | write w now call => exact absurd rfl (hno w now call)
      | _ => rfl
    simpa [Ledger, hdb, hno'] using hl

/-- Along a run the ledger is right in every state just when no step writes an
outcome over a terminal row. -/
theorem always_ledger_iff {as : List Action} (h₀ : Fresh s₀)
    (hr : Run (step lib rateLimiter) s₀ as s) :
    Always (step lib rateLimiter) Ledger s₀ as ↔
      Each (step lib rateLimiter) (fun s a => noOverwrite s a) s₀ as := by
  refine hr.always_iff_each h₀.ledger h₀.books ?_ ?_
  · intro s a s' _ hbooks hs
    exact hbooks.step (move_of_step hs)
  · intro s a s' hl hbooks hs
    exact ledger_step_iff hbooks hl (move_of_step hs)

end

theorem always_ledger_retriedOnce : Always plainStep Ledger oneTask retriedOnce := by
  refine (always_ledger_iff fresh_oneTask (run_final retriedOnce rfl)).2 ?_
  exact each_of_eachB (p := noOverwrite) (fun _ _ h => h) (by rfl)

/-- The outcome is committed, the acknowledgement is lost, and the entry is
reclaimed and processed again. -/
def countedTwice : List Action :=
  iteration 0 okReply 0 ++ lostAck 0 400000000 ++ iteration 0 okReply 400000000

theorem not_ledger_countedTwice :
    Fresh oneTask ∧ Run plainStep oneTask countedTwice (final plainStep oneTask countedTwice) ∧
      ¬ Ledger (final plainStep oneTask countedTwice) := by
  refine ⟨fresh_oneTask, run_final _ rfl, fun hl => ?_⟩
  have hrow : (final plainStep oneTask countedTwice).stores.db.testRuns.rows.map
      (fun r => (r.id, r.completedTasks)) = [(0, 2)] := by rfl
  have htasks : (final plainStep oneTask countedTwice).stores.db.tasksOf 0 (· = .completed) = 1 := by rfl
  obtain ⟨r, hr, he⟩ := List.mem_map.1 (hrow ▸ List.mem_singleton_self (0, 2))
  have := (hl r hr).completed
  simp only [Prod.mk.injEq] at he
  rw [he.1, he.2, htasks] at this
  cases this

end ApiTesting
