import ApiTesting.Lib.Paging
import ApiTesting.Proofs.Subtrees
import ApiTesting.Spec.Endpoints

/-! The pages of the tasks of a run. Tasks are ordered by the index of their data row and by
`sequence_order`, which is the `order_index` of their request and not unique: tasks that tie
may come in another order with every page. -/

namespace ApiTesting

open Keyed ServiceM Fallible Paging

/-- The rows `list_by_run` counts and pages through. -/
def Database.matchingTasks (db : Database) (testRunId : UUID) (status : Option TestTaskStatus) :
    List TestTask :=
  db.testTasks.rows.filter fun t => t.testRunId = testRunId ∧ status.all fun q => t.status = q

/-- `a` may be on an earlier page than `b`. -/
def TestTask.mayPrecede (a b : TestTask) : Prop := TestTaskRepository.inPageOrder a b = true

instance : DecidableRel TestTask.mayPrecede := fun a b =>
  inferInstanceAs (Decidable (TestTaskRepository.inPageOrder a b = true))

/-- What a query for one page may return, of a database in which the tasks of the run are
those of `db`. -/
def TaskPage (db : Database) (testRunId : UUID) (status : Option TestTaskStatus) (limit offset : ℕ)
    (response : List TestTask × ℕ) : Prop :=
  ∃ db' : Database, (∀ t : TestTask, t.testRunId = testRunId →
      (t ∈ db'.testTasks.rows ↔ t ∈ db.testTasks.rows)) ∧
    Answers TestTask.mayPrecede (db'.matchingTasks testRunId status) limit offset response

/-- A client that asks for page after page until it has the total gets there, has every
matching task exactly once, and was told their number with every page. -/
def PagedOnce (db : Database) (testRunId : UUID) (status : Option TestTaskStatus) (limit : ℕ) : Prop :=
  (∃ responses, Fetched (TaskPage db testRunId status limit) limit 0 responses) ∧
    ∀ responses, Fetched (TaskPage db testRunId status limit) limit 0 responses →
      (contents responses).Perm (db.matchingTasks testRunId status) ∧
        ∀ response ∈ responses, response.2 = (db.matchingTasks testRunId status).length

/-- No two tasks with the same sort keys stand on either side of the end of a page. -/
def TiesWithinPages (db : Database) (testRunId : UUID) (status : Option TestTaskStatus) (limit : ℕ) : Prop :=
  ∀ k, Cut TestTask.mayPrecede (db.matchingTasks testRunId status) (k * limit)

theorem mayPrecede_iff {a b : TestTask} : a.mayPrecede b ↔
    match a.dataRowIndex, b.dataRowIndex with
    | some i, some j => i < j ∨ i = j ∧ a.sequenceOrder ≤ b.sequenceOrder
    | some _, none => True
    | none, some _ => False
    | none, none => a.sequenceOrder ≤ b.sequenceOrder := by
  unfold TestTask.mayPrecede TestTaskRepository.inPageOrder
  cases a.dataRowIndex <;> cases b.dataRowIndex <;> simp

instance : IsTrans TestTask TestTask.mayPrecede where
  trans a b c hab hbc := by
    rw [mayPrecede_iff] at hab hbc ⊢
    revert hab hbc
    cases a.dataRowIndex <;> cases b.dataRowIndex <;> cases c.dataRowIndex <;> grind

instance : Std.Total TestTask.mayPrecede where
  total a b := by
    rw [mayPrecede_iff, mayPrecede_iff]
    cases a.dataRowIndex <;> cases b.dataRowIndex <;> simp
    all_goals omega

section
variable {db : Database} {testRunId : UUID} {status : Option TestTaskStatus} {limit offset : ℕ}

theorem nodup_matchingTasks : (db.matchingTasks testRunId status).Nodup :=
  (List.Nodup.of_map _ db.testTasks.nodup).filter _

theorem mem_matchingTasks {t : TestTask} : t ∈ db.matchingTasks testRunId status ↔
    t ∈ db.testTasks.rows ∧ t.testRunId = testRunId ∧ ∀ q ∈ status, t.status = q := by
  cases status <;> simp [Database.matchingTasks]

/-- The rows of the run are what matters of the database. -/
theorem taskPage_eq : TaskPage db testRunId status limit =
    Answers TestTask.mayPrecede (db.matchingTasks testRunId status) limit := by
  funext offset response
  refine propext ⟨?_, fun h => ⟨db, fun _ _ => Iff.rfl, h⟩⟩
  rintro ⟨db', hsame, order, ⟨hperm, hsorted⟩, rfl⟩
  have hrows : (db'.matchingTasks testRunId status).Perm (db.matchingTasks testRunId status) := by
    refine (List.perm_ext_iff_of_nodup nodup_matchingTasks nodup_matchingTasks).2 fun t => ?_
    rw [mem_matchingTasks, mem_matchingTasks]
    constructor
    · rintro ⟨ht, hrun, hstatus⟩
      exact ⟨(hsame t hrun).1 ht, hrun, hstatus⟩
    · rintro ⟨ht, hrun, hstatus⟩
      exact ⟨(hsame t hrun).2 ht, hrun, hstatus⟩
  exact ⟨order, ⟨hperm.trans hrows, hsorted⟩, by rw [hrows.length_eq]⟩

/-- `list_by_run` returns one of the pages that may come. -/
theorem taskPage_of_listByRun {s s' : Session} {response : List TestTask × ℕ}
    (h : TestTaskRepository.listByRun testRunId status limit offset s = (.ok response, s')) :
    TaskPage s.db testRunId status limit offset response := by
  rw [taskPage_eq, query_ok h]
  exact ⟨_, orders_insertionSort _ _, rfl⟩

end

/-- Paging covers every task exactly once just when no page ends between two tasks of one
data row whose requests have the same position. -/
theorem paged_once_iff (db : Database) (testRunId : UUID) (status : Option TestTaskStatus) (limit : ℕ)
    (hlimit : 1 ≤ limit) : PagedOnce db testRunId status limit ↔ TiesWithinPages db testRunId status limit := by
  have hnodup : (db.matchingTasks testRunId status).Nodup := nodup_matchingTasks
  have hiff := contents_perm_iff TestTask.mayPrecede hlimit hnodup
  unfold PagedOnce TiesWithinPages
  rw [taskPage_eq, ← hiff]
  constructor
  · rintro ⟨-, hall⟩ responses h
    exact (hall responses h).1
  · intro hall
    obtain ⟨responses, hresponses, -⟩ := fetched_rest hlimit (orders_insertionSort TestTask.mayPrecede _) 0
    refine ⟨⟨responses, hresponses⟩, fun responses h => ⟨hall responses h, fun response hr => ?_⟩⟩
    obtain ⟨start, order, -, rfl⟩ := h.answered response hr
    rfl

/-- A collection of two requests that are both put first. -/
def twinRequests : Database :=
  { tenant with
    users := Table.empty.set ⟨2, "owner@acme.test"⟩
    apiRequests := tenant.apiRequests.set
      ⟨6, 4, "Pong", .get, "http://pong", .empty, .empty, none, 0, 1000, [], 1⟩ }

/-- The tasks of a run of it. -/
def twinTasks : List TestTask :=
  TestTaskRepository.assignIds 11 (pendingTasks 10 (twinRequests.requestsOf 4) (rowsOf none))

def twinRun : Database :=
  { twinRequests with
    testRuns := Table.empty.set { startedRun 10 2 with collectionId := 4, initiatedBy := 2 }
    testTasks := twinTasks.foldl Table.set .empty }

theorem matchingTasks_twinRun : twinRun.matchingTasks 10 none = twinTasks := rfl

/-- They tie, and are on one page. -/
theorem paged_once_twinRun : PagedOnce twinRun 10 none 2 := by
  refine (paged_once_iff twinRun 10 none 2 (by decide)).2 fun k t ht => ?_
  have htie : ∀ t ∈ twinTasks, before TestTask.mayPrecede twinTasks t = 0 ∧
      upTo TestTask.mayPrecede twinTasks t = 2 := by decide
  rw [matchingTasks_twinRun] at ht ⊢
  obtain ⟨hbefore, hupTo⟩ := htie t ht
  omega

/-- On two pages the first of them can come twice. -/
theorem not_paged_once_twinRun : ¬ PagedOnce twinRun 10 none 1 := by
  rintro ⟨-, hall⟩
  have hfirst : TaskPage twinRun 10 none 1 0 (twinTasks.take 1, 2) :=
    ⟨twinRun, fun _ _ => Iff.rfl, twinTasks, ⟨List.Perm.refl _, by decide⟩, rfl⟩
  have hsecond : TaskPage twinRun 10 none 1 1 (twinTasks.take 1, 2) :=
    ⟨twinRun, fun _ _ => Iff.rfl, twinTasks.reverse, ⟨List.reverse_perm _, by decide⟩, rfl⟩
  have hperm := (hall _ (.next hfirst (by decide) (.last hsecond (by decide)))).1.map TestTask.id
  exact absurd hperm (by decide)

end ApiTesting
