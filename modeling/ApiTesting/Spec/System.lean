import ApiTesting.Spec.Worker
import ApiTesting.Lib.Machine

/-! The running platform as one machine: any number of workers, the retry
sweeper and the reclaim sweeper over one database, one stream, one retry set and
the chain contexts. An action is what one process does between two waits, and
carries what its environment decides: the clock it reads, the reply it gets, and
whether a call raises. -/

namespace ApiTesting

open Keyed

/-- How far `process_task` is for one entry of a batch. -/
inductive Phase
  | delivered
  | loaded (v : TaskView)
  | resolved (v : TaskView) (chain : Dict String String)
  | executing (v : TaskView) (chain : Dict String String)
  | returned (result : Except Exn TaskOutcome)

structure Slot where
  entry : StreamEntry
  phase : Phase

/-- The result `gather` waits for. -/
def Slot.result? (s : Slot) : Option (Except Exn (ℕ × Option TaskOutcome)) :=
  match s.phase with
  | .returned r => some (processEntry s.entry r)
  | _ => none

/-- Where a worker is in its loop. -/
inductive WorkerState
  | idle
  | gathering (slots : List Slot)
  | writing (batch : Batch)
  | acking (entryIds : List ℕ)

/-- After the consume: `gather`, unless nothing came. -/
def afterConsume (batch : List StreamEntry) : WorkerState :=
  if batch.isEmpty then .idle else .gathering (batch.map fun e => ⟨e, .delivered⟩)

/-- The acknowledgement, where there is something to acknowledge. -/
def beforeAck (entryIds : List ℕ) : WorkerState :=
  if entryIds.isEmpty then .idle else .acking entryIds

/-- After `gather`: the write, where there is an outcome. -/
def afterGather (b : Batch) : WorkerState :=
  if b.outcomes.isEmpty then beforeAck b.entryIdsToAck else .writing b

/-- After the write: nothing is acknowledged where it raised. -/
def afterWrite (result : Except Exn Unit) (entryIds : List ℕ) : WorkerState :=
  match result with
  | .ok () => beforeAck entryIds
  | .error _ => .idle

/-- Where `RetrySweeper.sweep_once` is; `popped []` is between two sweeps. -/
inductive RetrySweeper
  | ranged (taskIds : List UUID)
  | popped (taskIds : List UUID)
  | failed (taskId : UUID) (rest : List UUID)

/-- Where `ReclaimSweeper.sweep_once` is; `claimed []` is between two sweeps. -/
inductive ReclaimSweeper
  | claimed (entries : List StreamEntry)
  | enqueued (entry : StreamEntry) (rest : List StreamEntry)

/-- A resolved request, as it is handed to the HTTP client. -/
structure SentRequest where
  testTaskId : UUID
  request : ResolvedRequest

/-- What an attempt sends: nothing where a template does not resolve. -/
def TaskView.requests (v : TaskView) (chain : Dict String String) : List SentRequest :=
  match v.resolve chain with
  | .ok request => [⟨v.testTask.id, request⟩]
  | .error _ => []

/-- `sent` and `published` are histories: every request handed to a client, and every merge
into a chain context with the task that made it. -/
structure System where
  stores : Stores
  stream : Stream
  sent : List SentRequest
  published : List (UUID × Dict String String)
  workers : List WorkerState
  retrySweeper : RetrySweeper
  reclaimSweeper : ReclaimSweeper

inductive SlotAction
  | load
  | readContext (now : Timestamp)
  | send (allowed : Bool) (now : Timestamp) (call : Call)
  | settle (reply : HttpReply) (now : Timestamp) (call expireCall : Call)
  | callRaised

inductive Action
  | consume (w : WorkerId) (count : ℕ) (now : Timestamp)
  | slot (w : WorkerId) (i : ℕ) (a : SlotAction)
  | gather (w : WorkerId)
  | write (w : WorkerId) (now : Timestamp) (call : Call)
  | ack (w : WorkerId) (call : Call)
  | crash (w : WorkerId)
  | retryRange (now : Timestamp) (limit : ℕ)
  | retryRemove (call : Call)
  | retryEnqueue (call : Call)
  | retryReschedule (now : Timestamp) (call : Call)
  | reclaim (minIdle count : ℕ) (now : Timestamp)
  | reclaimEnqueue (call : Call)
  | reclaimAck (call : Call)

/-- What one step of `process_task` changes. -/
structure SlotEffect where
  phase : Phase
  stores : Stores
  sent : List SentRequest
  published : List (UUID × Dict String String)

section
variable (lib : Libraries) (rateLimiter : Bool)

def slotStep (w : WorkerId) (st : Stores) (slot : Slot) (a : SlotAction) : Option SlotEffect :=
  match a, slot.phase with
  | .load, .delivered =>
    match loadTask st.db slot.entry.taskId with
    | .ok v => some ⟨.loaded v, st, [], []⟩
    | .error e => some ⟨.returned (.error e), st, [], []⟩
  | .readContext now, .loaded v =>
    some ⟨.resolved v (v.chainContext now st.contexts), st, [], []⟩
  | .send allowed now call, .resolved v chain =>
    match passRateLimit lib rateLimiter v chain allowed now call st with
    | (.error e, st') => some ⟨.returned (.error e), st', [], []⟩
    | (.ok (), st') => some ⟨.executing v chain, st', v.requests chain, []⟩
  | .settle reply now call expireCall, .executing v chain =>
    let r := settleTask lib w v chain reply now call expireCall st
    let published :=
      match judgeReply lib w v chain reply now st.db with
      | .ok (.merge vars, _) => if call.tookEffect then [(v.testTask.id, vars)] else []
      | _ => []
    some ⟨.returned r.1, r.2, [], published⟩
  | .callRaised, .returned _ => none
  | .callRaised, _ => some ⟨.returned (.error callError), st, [], []⟩
  | _, _ => none

def stepSlot (s : System) (w : WorkerId) (i : ℕ) (a : SlotAction) : Option System :=
  match s.workers[w]? with
  | some (.gathering slots) =>
    match slots[i]? with
    | some slot =>
      (slotStep lib rateLimiter w s.stores slot a).map fun e =>
        { s with
          stores := e.stores
          sent := s.sent ++ e.sent
          published := s.published ++ e.published
          workers := s.workers.set w (.gathering (slots.set i { slot with phase := e.phase })) }
    | none => none
  | _ => none

/-- The whole batch, once every entry of it has returned. -/
def gathered (slots : List Slot) : Option Batch :=
  if slots.all fun s => s.result?.isSome then some (collect (slots.filterMap Slot.result?))
  else none

def step (s : System) (a : Action) : Option System :=
  match a with
  | .consume w count now =>
    match s.workers[w]? with
    | some .idle =>
      some
        { s with
          stream := s.stream.consume (.worker w) count now
          workers := s.workers.set w (afterConsume (s.stream.batch count)) }
    | _ => none
  | .slot w i a => stepSlot lib rateLimiter s w i a
  | .gather w =>
    match s.workers[w]? with
    | some (.gathering slots) =>
      (gathered slots).map fun b => { s with workers := s.workers.set w (afterGather b) }
    | _ => none
  | .write w now call =>
    match s.workers[w]? with
    | some (.writing b) =>
      let r := runWrite b.outcomes now call s.stores.db
      some
        { s with
          stores := { s.stores with db := r.2 }
          workers := s.workers.set w (afterWrite r.1 b.entryIdsToAck) }
    | _ => none
  | .ack w call =>
    match s.workers[w]? with
    | some (.acking entryIds) =>
      some
        { s with
          stream := (runAck entryIds call s.stream).2
          workers := s.workers.set w .idle }
    | _ => none
  | .crash w =>
    match s.workers[w]? with
    | some _ => some { s with workers := s.workers.set w .idle }
    | none => none
  | .retryRange now limit =>
    match s.retrySweeper with
    | .popped [] =>
      let due := s.stores.retryPending.due now limit
      some { s with retrySweeper := if due.isEmpty then .popped [] else .ranged due }
    | _ => none
  | .retryRemove call =>
    match s.retrySweeper with
    | .ranged due =>
      some
        { s with
          stores :=
            if call.tookEffect then
              { s.stores with retryPending := s.stores.retryPending.remove due }
            else s.stores
          retrySweeper := .popped (if call.returned then due else []) }
    | _ => none
  | .retryEnqueue call =>
    match s.retrySweeper with
    | .popped (t :: rest) =>
      some
        { s with
          stream := if call.tookEffect then s.stream.enqueue t else s.stream
          retrySweeper := if call.returned then .popped rest else .failed t rest }
    | _ => none
  | .retryReschedule now call =>
    match s.retrySweeper with
    | .failed t rest =>
      some
        { s with
          stores := (s.stores.scheduleRetry t now call).2
          retrySweeper := .popped (if call.returned then rest else []) }
    | _ => none
  | .reclaim minIdle count now =>
    match s.reclaimSweeper with
    | .claimed [] =>
      some
        { s with
          stream := s.stream.claimStale .reclaimer minIdle count now
          reclaimSweeper := .claimed (s.stream.stale minIdle count now) }
    | _ => none
  | .reclaimEnqueue call =>
    match s.reclaimSweeper with
    | .claimed (e :: rest) =>
      some
        { s with
          stream := if call.tookEffect then s.stream.enqueue e.taskId else s.stream
          reclaimSweeper := if call.returned then .enqueued e rest else .claimed rest }
    | _ => none
  | .reclaimAck call =>
    match s.reclaimSweeper with
    | .enqueued e rest =>
      some
        { s with
          stream := (runAck [e.entryId] call s.stream).2
          reclaimSweeper := .claimed rest }
    | _ => none

end

/-- The entry at position `i` of the batch worker `w` is gathering. -/
def System.slotAt? (s : System) (w : WorkerId) (i : ℕ) : Option Slot :=
  match s.workers[w]? with
  | some (.gathering slots) => slots[i]?
  | _ => none

/-- The entries a worker may acknowledge. -/
def WorkerState.entryIds : WorkerState → List ℕ
  | .idle => []
  | .gathering slots => slots.map fun slot => slot.entry.entryId
  | .writing b => b.entryIdsToAck
  | .acking entryIds => entryIds

/-- What the retry sweeper has taken off the set and not put anywhere yet. -/
def RetrySweeper.inHand : RetrySweeper → List UUID
  | .ranged _ => []
  | .popped taskIds => taskIds
  | .failed taskId rest => taskId :: rest

/-- How many tasks of a run are in one of the statuses. -/
def Database.tasksOf (db : Database) (run : UUID) (p : TestTaskStatus → Bool) : ℕ :=
  db.testTasks.rows.countP fun t => t.testRunId = run ∧ p t.status

/-- Committed runs none of whose tasks has been delivered: one entry on the
stream for each task, and every process between two iterations of its loop. -/
structure Fresh (s : System) : Prop where
  waiting : ∀ t ∈ s.stores.db.testTasks.rows,
    t.status = .pending ∧ t.retryCount = 0 ∧ t.nextRetryAt = none
  parents : ∀ t ∈ s.stores.db.testTasks.rows,
    (s.stores.db.apiRequests.get? t.apiRequestId).isSome ∧
      (s.stores.db.testRuns.get? t.testRunId).isSome
  running : ∀ r ∈ s.stores.db.testRuns.rows,
    r.status = .running ∧ r.completedTasks = 0 ∧ r.failedTasks = 0 ∧ 0 < r.totalTasks ∧
      s.stores.db.tasksOf r.id (fun _ => true) = r.totalTasks
  enqueued : s.stream.log.Perm s.stores.db.testTasks.keys
  undelivered : s.stream.delivered = 0
  noRetry : s.stores.retryPending.keys = []
  noResult : s.stores.db.requestResults = []
  noRequest : s.sent = []
  noVariable : s.published = []
  idle : ∀ w ∈ s.workers, w = .idle
  retrySweeper : s.retrySweeper = .popped []
  reclaimSweeper : s.reclaimSweeper = .claimed []

/-- The platform over a database whose runs have just been committed. -/
def launch (db : Database) (workers : ℕ) : System where
  stores := { db, retryPending := .empty, contexts := .empty }
  stream := { Stream.empty with log := db.testTasks.keys, delivered_le := Nat.zero_le _ }
  sent := []
  published := []
  workers := List.replicate workers .idle
  retrySweeper := .popped []
  reclaimSweeper := .claimed []

end ApiTesting
