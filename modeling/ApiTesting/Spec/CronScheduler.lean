import ApiTesting.Spec.TestRunService

/-! `scheduler.cron_scheduler`: one sweep over the schedules that are due, all in one
transaction, with a handler around each creation of a run. -/

namespace ApiTesting

open Keyed ServiceM

/-- One round of the loop: whether a run was triggered. -/
def triggerSchedule (lib : Libraries) (schedule : Schedule) : ServiceM Bool := do
  let triggered ← tryCatch
    (do
      let _ ← TestRunService.createScheduledRun schedule.collectionId schedule.createdBy
      pure true)
    (fun _ => pure false)
  let nextRunAt ← computeNextRunAt lib schedule.cronExpression schedule.timezone
  let _ ← ScheduleRepository.update
    { schedule with lastRunAt := some (← now), nextRunAt := some nextRunAt }
  return triggered

def triggerAll (lib : Libraries) : List Schedule → ℕ → ServiceM ℕ
  | [], triggeredCount => pure triggeredCount
  | schedule :: rest, triggeredCount => do
    let triggered ← triggerSchedule lib schedule
    triggerAll lib rest (if triggered then triggeredCount + 1 else triggeredCount)

/-- `CronScheduler.sweep_once` -/
def cronSweepOnce (lib : Libraries) (batchSize : ℕ) : ServiceM ℕ := do
  let dueSchedules ← ScheduleRepository.listDue (← now) batchSize
  if dueSchedules.isEmpty then return 0
  let triggeredCount ← triggerAll lib dueSchedules 0
  commit
  return triggeredCount

end ApiTesting
