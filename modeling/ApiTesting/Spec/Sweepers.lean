import ApiTesting.Spec.Worker

/-! `scheduler.retry_sweeper`: one sweep of the delayed-retry set, as a loop over
the popped ids with a handler around each `enqueue`. `scheduler.reclaim_sweeper`:
one sweep of the pending entries, as a loop over the claimed ones with a handler
around each round. -/

namespace ApiTesting

open Keyed

/-- A sweep runs on the retry set and the stream and may raise. -/
abbrev SweepM := ExceptT Exn (StateM (RetryQueue × Stream))

/-- What the round for one id runs into: its `enqueue`, and the `schedule_retry` of the handler. -/
structure RoundCalls where
  enqueue : Call
  scheduleRetry : Call
  now : Timestamp

namespace SweepM

def popDue (now : Timestamp) (limit : ℕ) : SweepM (List UUID) :=
  fun s =>
    let r := s.1.popDue now limit
    (.ok r.1, (r.2, s.2))

def enqueue (taskId : UUID) (call : Call) : SweepM Unit :=
  fun s =>
    (if call.returned then .ok () else .error callError,
      (s.1, if call.tookEffect then s.2.enqueue taskId else s.2))

def scheduleRetry (taskId : UUID) (at_ : Timestamp) (call : Call) : SweepM Unit :=
  fun s =>
    (if call.returned then .ok () else .error callError,
      (if call.tookEffect then s.1.scheduleRetry taskId at_ else s.1, s.2))

end SweepM

/-- One round of the loop: whether the id was enqueued. -/
def moveBack (taskId : UUID) (calls : RoundCalls) : SweepM Bool :=
  tryCatch
    (do
      SweepM.enqueue taskId calls.enqueue
      pure true)
    (fun _ => do
      SweepM.scheduleRetry taskId calls.now calls.scheduleRetry
      pure false)

def moveAllBack (calls : UUID → RoundCalls) : List UUID → ℕ → SweepM ℕ
  | [], enqueuedCount => pure enqueuedCount
  | taskId :: rest, enqueuedCount => do
    let moved ← moveBack taskId (calls taskId)
    moveAllBack calls rest (if moved then enqueuedCount + 1 else enqueuedCount)

/-- `RetrySweeper.sweep_once`; the popped ids are distinct, so the calls of a round go by its id. -/
def sweepOnce (now : Timestamp) (limit : ℕ) (calls : UUID → RoundCalls) : SweepM ℕ := do
  let dueTaskIds ← SweepM.popDue now limit
  moveAllBack calls dueTaskIds 0

/-- A sweep of the pending entries runs on the stream and may raise. -/
abbrev ReclaimM := ExceptT Exn (StateM Stream)

/-- The two calls of the round for one claimed entry. -/
structure ReclaimCalls where
  enqueue : Call
  ack : Call

namespace ReclaimM

/-- A call that changes the stream where it takes effect. -/
def call (change : Stream → Stream) (call : Call) : ReclaimM Unit :=
  fun st =>
    (if call.returned then .ok () else .error callError,
      if call.tookEffect then change st else st)

/-- `claim_stale`; the entries come with the reply. Redis takes up to `count` of them, and no
more than the `found` its scan comes to. -/
def claimStale (minIdleMs count found : ℕ) (now : Timestamp) (call : Call) : ReclaimM (List StreamEntry) :=
  fun st =>
    (if call.returned then .ok (st.stale (minIdleMs * 1000) (min found count) now) else .error callError,
      if call.tookEffect then st.claimStale .reclaimer (minIdleMs * 1000) (min found count) now else st)

def enqueue (taskId : UUID) (call : Call) : ReclaimM Unit := ReclaimM.call (·.enqueue taskId) call

def ack (entryId : ℕ) (call : Call) : ReclaimM Unit := ReclaimM.call (·.ack [entryId]) call

/-- One round of the loop: whether it counts. The fresh copy comes before the `XACK`. -/
def reclaim (entry : StreamEntry) (calls : ReclaimCalls) : ReclaimM Bool :=
  tryCatch
    (do
      enqueue entry.taskId calls.enqueue
      ack entry.entryId calls.ack
      pure true)
    (fun _ => pure false)

def reclaimAll (calls : ℕ → ReclaimCalls) : List StreamEntry → ℕ → ReclaimM ℕ
  | [], reclaimedCount => pure reclaimedCount
  | entry :: rest, reclaimedCount => do
    let reclaimed ← reclaim entry (calls entry.entryId)
    reclaimAll calls rest (if reclaimed then reclaimedCount + 1 else reclaimedCount)

/-- `ReclaimSweeper.sweep_once`; the claimed entries are distinct, so the calls of a
round go by the id of its entry. -/
def sweepOnce (minIdleMs batchSize found : ℕ) (now : Timestamp) (claim : Call) (calls : ℕ → ReclaimCalls) :
    ReclaimM ℕ := do
  let staleEntries ← claimStale minIdleMs batchSize found now claim
  reclaimAll calls staleEntries 0

end ReclaimM

end ApiTesting
