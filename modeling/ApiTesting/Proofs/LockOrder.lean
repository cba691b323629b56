import ApiTesting.Lib.Locks
import ApiTesting.Proofs.CommitOrder

/-! The row locks of concurrent calls of `write_batch`. Each takes those of its tasks
with the bulk UPDATE and then, one UPDATE after the other, those of its runs, in the
order in which the runs first appear among the outcomes that count; it keeps them to
its end. -/

namespace ApiTesting

open Keyed Machine

inductive LockedRow
  | testTask (id : UUID)
  | testRun (id : UUID)
deriving DecidableEq

/-- The runs `_update_run_progress` updates, in its order. -/
def runOrder (outcomes : List TaskOutcome) : List UUID := (runDeltas outcomes).keys

/-- The rows a call locks, in its order. -/
def rowLocks (outcomes : List TaskOutcome) : List LockedRow :=
  outcomes.map (fun o => .testTask o.testTaskId) ++ (runOrder outcomes).map .testRun

/-- No two of the batches have a task in common. -/
def TasksApart {n : ℕ} (batches : Fin n → List TaskOutcome) : Prop :=
  ∀ i j, i ≠ j → ((batches i).map TaskOutcome.testTaskId).Disjoint ((batches j).map TaskOutcome.testTaskId)

/-- Concurrent calls of `write_batch` on these batches, each in its own transaction,
which ends with a commit or a rollback. -/
abbrev Writing {n : ℕ} (batches : Fin n → List TaskOutcome) (as : List (Locks.Action (Fin n)))
    (s : Fin n → Locks.Party LockedRow) : Prop :=
  Run Locks.step (Locks.start fun i => rowLocks (batches i)) as s

theorem keys_addDelta (deltas : Dict UUID Delta) (o : TaskOutcome) :
    (addDelta deltas o).keys =
      if o.newStatus.terminal then
        if o.testRunId ∈ deltas.keys then deltas.keys else deltas.keys ++ [o.testRunId]
      else deltas.keys := by
  unfold addDelta
  split
  · exact Table.keys_set deltas _
  · rfl

/-- A run has its place where it first appears. -/
theorem runOrder_eq (outcomes : List TaskOutcome) :
    runOrder outcomes =
      ((outcomes.filter fun o => o.newStatus.terminal).map TaskOutcome.testRunId).eraseDups := by
  induction outcomes using List.reverseRecOn with
  | nil => rfl
  | append_singleton outcomes o ih =>
    have hkeys := keys_addDelta (runDeltas outcomes) o
    rw [← runOrder, ih] at hkeys
    have hstep : runOrder (outcomes ++ [o]) = (addDelta (runDeltas outcomes) o).keys := by
      rw [runOrder, runDeltas, List.foldl_append]
      rfl
    rw [hstep, hkeys, List.filter_append, List.map_append, List.eraseDups_append]
    cases ht : o.newStatus.terminal with
    | false => simp [ht]
    | true =>
      by_cases hmem : o.testRunId ∈ (outcomes.filter fun o => o.newStatus.terminal).map TaskOutcome.testRunId
      · simp [ht, hmem, List.mem_eraseDups, List.removeAll]
      · simp [ht, hmem, List.mem_eraseDups, List.removeAll, List.eraseDups_cons]

section
variable {n : ℕ} {batches : Fin n → List TaskOutcome}

theorem writing_never_deadlocked_iff (htasks : TasksApart batches) :
    (∀ as s, Writing batches as s → ¬ Locks.Deadlocked s) ↔
      ¬ Locks.Crossed fun i => runOrder (batches i) := by
  rw [Locks.never_deadlocked_iff, not_iff_not]
  have hdistinct : ∀ (l : List TaskOutcome) (runs : List UUID), List.Disjoint
      (l.map fun o => LockedRow.testTask o.testTaskId) (runs.map LockedRow.testRun) := by
    intro l runs r hl hr
    obtain ⟨o, -, rfl⟩ := List.mem_map.1 hl
    obtain ⟨q, -, hq⟩ := List.mem_map.1 hr
    cases hq
  calc Locks.Crossed (fun i => rowLocks (batches i))
      ↔ Locks.Crossed (fun i => (runOrder (batches i)).map LockedRow.testRun) := by
        refine Locks.crossed_append_iff (fun i j hij r hi hj => ?_) fun i j => hdistinct _ _
        obtain ⟨o, ho, rfl⟩ := List.mem_map.1 hi
        obtain ⟨q, hq, heq⟩ := List.mem_map.1 hj
        refine htasks i j hij (List.mem_map_of_mem ho) ?_
        rw [← LockedRow.testTask.inj heq]
        exact List.mem_map_of_mem hq
    _ ↔ Locks.Crossed (fun i => runOrder (batches i)) :=
        Locks.crossed_map_iff fun _ _ h => LockedRow.testRun.inj h

/-- With the runs of every batch in ascending order no call waits for another in a circle. -/
theorem writing_not_deadlocked_of_sorted (htasks : TasksApart batches)
    (hsorted : ∀ i, (runOrder (batches i)).Pairwise (· < ·)) {as : List (Locks.Action (Fin n))}
    {s : Fin n → Locks.Party LockedRow} (h : Writing batches as s) : ¬ Locks.Deadlocked s :=
  (writing_never_deadlocked_iff htasks).2 (Locks.not_crossed_of_sorted (· < ·) hsorted) as s h

end

/-- Concurrent batch writes never deadlock exactly where the orders of their runs cannot
be cut so that every one of some calls is to take a run next that the following one has. -/
theorem writes_never_deadlock_iff (n : ℕ) (batches : Fin n → List TaskOutcome) (htasks : TasksApart batches) :
    (∀ as s, Writing batches as s → ¬ Locks.Deadlocked s) ↔
      ¬ Locks.Crossed fun i => runOrder (batches i) := writing_never_deadlocked_iff htasks

/-- Two workers, each with one outcome of either run, in opposite orders. -/
def oppositeBatches (i : Fin 2) : List TaskOutcome :=
  if i = 0 then [bareOutcome 0 0 1 .completed, bareOutcome 1 1 1 .completed]
  else [bareOutcome 2 1 1 .completed, bareOutcome 3 0 1 .completed]

theorem tasksApart_oppositeBatches : TasksApart oppositeBatches := by
  unfold TasksApart List.Disjoint
  decide

theorem writes_never_deadlock_oppositeBatches :
    (∀ as s, Writing oppositeBatches as s → ¬ Locks.Deadlocked s) ↔
      ¬ Locks.Crossed fun i => runOrder (oppositeBatches i) :=
  writes_never_deadlock_iff 2 oppositeBatches tasksApart_oppositeBatches

/-- Each has updated its first run and waits for the other's. -/
theorem not_writes_never_deadlock_oppositeBatches :
    ¬ (TasksApart oppositeBatches → ∀ as s, Writing oppositeBatches as s → ¬ Locks.Deadlocked s) := by
  intro h
  refine (writing_never_deadlocked_iff tasksApart_oppositeBatches).1 (h tasksApart_oppositeBatches) ?_
  let s : Fin 2 → Locks.Party UUID := fun i => if i = 0 then ⟨[0], [1]⟩ else ⟨[1], [0]⟩
  have hdivides : ∀ i, (s i).held ++ (s i).wanted = runOrder (oppositeBatches i) := by decide
  have hexclusive : Locks.Exclusive s := by
    unfold Locks.Exclusive List.Disjoint
    decide
  have hfirst : Locks.WaitsFor s 0 1 := ⟨by decide, 1, rfl, List.mem_cons_self⟩
  have hsecond : Locks.WaitsFor s 1 0 := ⟨by decide, 0, rfl, List.mem_cons_self⟩
  exact ⟨s, hdivides, hexclusive, 0, (Relation.TransGen.single hfirst).tail hsecond⟩

end ApiTesting
