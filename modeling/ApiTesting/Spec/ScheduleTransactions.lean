import ApiTesting.Spec.CronScheduler

/-! Schedules under concurrent transactions at READ COMMITTED. A transaction reads its
rows, computes what they are to be and flushes; the rows it has written are locked, and
its statements are its own, until it ends. An UPDATE sets the columns that differ from
what the session loaded, on the row as it is committed by then. -/

namespace ApiTesting

open Keyed

/-- The columns of an UPDATE. -/
structure SchedulePatch where
  cronExpression : Option String
  timezone : Option String
  isActive : Option Bool
  nextRunAt : Option (Option Timestamp)
  lastRunAt : Option (Option Timestamp)
deriving DecidableEq

/-- A column that was set to another value. -/
def changed {α : Type} [DecidableEq α] (loaded value : α) : Option α :=
  if value = loaded then none else some value

namespace SchedulePatch

def empty : SchedulePatch := ⟨none, none, none, none, none⟩

def between (loaded row : Schedule) : SchedulePatch where
  cronExpression := changed loaded.cronExpression row.cronExpression
  timezone := changed loaded.timezone row.timezone
  isActive := changed loaded.isActive row.isActive
  nextRunAt := changed loaded.nextRunAt row.nextRunAt
  lastRunAt := changed loaded.lastRunAt row.lastRunAt

def applyTo (p : SchedulePatch) (row : Schedule) : Schedule :=
  { row with
    cronExpression := p.cronExpression.getD row.cronExpression
    timezone := p.timezone.getD row.timezone
    isActive := p.isActive.getD row.isActive
    nextRunAt := p.nextRunAt.getD row.nextRunAt
    lastRunAt := p.lastRunAt.getD row.lastRunAt }

end SchedulePatch

/-- A statement, with the row as the session loaded it. -/
inductive ScheduleWrite
  | insert (row : Schedule)
  | update (loaded row : Schedule)
  | delete (loaded : Schedule)

namespace ScheduleWrite

def id : ScheduleWrite → UUID
  | .insert row => row.id
  | .update loaded _ => loaded.id
  | .delete loaded => loaded.id

/-- An UPDATE without columns is not sent. -/
def isSent : ScheduleWrite → Bool
  | .update loaded row => SchedulePatch.between loaded row ≠ .empty
  | _ => true

def applyTo (schedules : Table Schedule.id) : ScheduleWrite → Table Schedule.id
  | .insert row => schedules.set row
  | .update loaded row => schedules.modify loaded.id (SchedulePatch.between loaded row).applyTo
  | .delete loaded => schedules.erase loaded.id

end ScheduleWrite

/-- `next_run_at` as `create_schedule` and `update_schedule` compute it. -/
def withNextRun (lib : Libraries) (now : Timestamp) (row : Schedule) : Except LibraryExn Schedule :=
  if row.isActive then
    (lib.cronNext row.cronExpression row.timezone now).map fun next => { row with nextRunAt := some next }
  else .ok { row with nextRunAt := none }

/-- The row `update_schedule` makes of the one it has read. -/
def ScheduleUpdate.target (fields : ScheduleUpdate) (lib : Libraries) (now : Timestamp)
    (loaded : Schedule) : Except LibraryExn Schedule :=
  if fields.cronExpression.isSome ∨ fields.timezone.isSome ∨ fields.isActive.isSome then
    withNextRun lib now (fields.applyTo loaded)
  else .ok (fields.applyTo loaded)

/-- The row a sweep makes of one that was due. -/
def Schedule.advanced (loaded : Schedule) (lib : Libraries) (now : Timestamp) : Except LibraryExn Schedule :=
  (lib.cronNext loaded.cronExpression loaded.timezone now).map fun next =>
    { loaded with lastRunAt := some now, nextRunAt := some next }

inductive ScheduleRequest
  | create (collectionId createdBy : UUID) (cronExpression timezone : String) (isActive : Bool)
  | update (scheduleId : UUID) (fields : ScheduleUpdate)
  | delete (scheduleId : UUID)
  | sweep (batchSize : ℕ) (ties : Ties)

namespace ScheduleRequest

/-- The rows it is about: those it reads, or the one it is to add. -/
def rows (db : Database) (newId : UUID) (now : Timestamp) : ScheduleRequest → List Schedule
  | .create collectionId createdBy cronExpression timezone isActive =>
    [{ id := newId, collectionId, cronExpression, timezone, isActive, nextRunAt := none, lastRunAt := none,
       createdBy, createdAt := now }]
  | .update scheduleId _ => (db.schedules.get? scheduleId).toList
  | .delete scheduleId => (db.schedules.get? scheduleId).toList
  | .sweep batchSize ties => db.dueSchedules ties now batchSize

def writeFor (lib : Libraries) (now : Timestamp) (row : Schedule) :
    ScheduleRequest → Except LibraryExn ScheduleWrite
  | .create .. => (withNextRun lib now row).map .insert
  | .update _ fields => (fields.target lib now row).map (.update row)
  | .delete _ => .ok (.delete row)
  | .sweep _ _ => (row.advanced lib now).map (.update row)

end ScheduleRequest

/-- `todo` are the rows it has read and not yet written, `writes` what it has flushed. -/
structure ScheduleTransaction where
  request : ScheduleRequest
  todo : Option (List Schedule)
  writes : List ScheduleWrite

/-- `db` is what is committed. -/
structure ScheduleStore where
  db : Database
  transactions : Dict ℕ ScheduleTransaction

/-- Whatever raises, a refused request or a creation within a sweep included, ends with
the rollback. -/
inductive ScheduleAction
  | begin (t : ℕ) (request : ScheduleRequest)
  | read (t : ℕ) (newId : UUID) (now : Timestamp)
  | write (t : ℕ) (now : Timestamp)
  | commit (t : ℕ) (call : Call)
  | rollback (t : ℕ)

namespace ScheduleStore

def put (s : ScheduleStore) (t : ℕ) (tx : ScheduleTransaction) : ScheduleStore :=
  { s with transactions := s.transactions.put t tx }

def close (s : ScheduleStore) (t : ℕ) : ScheduleStore :=
  { s with transactions := s.transactions.erase t }

/-- Another transaction has written the row and not ended. -/
def isLocked (s : ScheduleStore) (t : ℕ) (id : UUID) : Bool :=
  s.transactions.rows.any fun p => p.1 ≠ t ∧ id ∈ p.2.writes.map ScheduleWrite.id

/-- A flush. It waits for the lock of the row; an INSERT of a row that is there raises,
and an UPDATE of one that is not, while a DELETE of one that is not goes unnoticed. -/
def flush (s : ScheduleStore) (t : ℕ) (tx : ScheduleTransaction) (w : ScheduleWrite) (rest : List Schedule) :
    Option ScheduleStore :=
  if w.isSent ∧ s.isLocked t w.id then none
  else
    let sent := { tx with todo := some rest, writes := tx.writes ++ [w] }
    match w, s.db.schedules.get? w.id with
    | .insert _, none => some (s.put t sent)
    | .insert _, some _ => some (s.close t)
    | .update _ _, none => some (s.close t)
    | .update _ _, some _ => some (s.put t (if w.isSent then sent else { tx with todo := some rest }))
    | .delete _, none => some (s.put t { tx with todo := some rest })
    | .delete _, some _ => some (s.put t sent)

/-- What a COMMIT makes of the schedules. -/
def committed (db : Database) (writes : List ScheduleWrite) : Database :=
  { db with schedules := writes.foldl (fun schedules w => w.applyTo schedules) db.schedules }

def step (lib : Libraries) (s : ScheduleStore) : ScheduleAction → Option ScheduleStore
  | .begin t request =>
    if t ∈ s.transactions.keys then none else some (s.put t ⟨request, none, []⟩)
  | .read t newId now =>
    match s.transactions.lookup t with
    | some ⟨request, none, writes⟩ => some (s.put t ⟨request, some (request.rows s.db newId now), writes⟩)
    | _ => none
  | .write t now =>
    match s.transactions.lookup t with
    | some ⟨request, some (row :: rest), writes⟩ =>
      match request.writeFor lib now row with
      | .ok w => s.flush t ⟨request, some (row :: rest), writes⟩ w rest
      | .error _ => some (s.close t)
    | _ => none
  | .commit t call =>
    match s.transactions.lookup t with
    | some ⟨_, some [], writes⟩ =>
      some { s.close t with db := if call.tookEffect then committed s.db writes else s.db }
    | _ => none
  | .rollback t => if t ∈ s.transactions.keys then some (s.close t) else none

end ScheduleStore

end ApiTesting
