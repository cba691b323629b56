import ApiTesting.Spec.System

/-! Runs as `_create_run` leaves them, and a platform started on them. -/

namespace ApiTesting

open Keyed

/-- The rows of a database the platform can be launched on. -/
structure Launchable (db : Database) : Prop where
  waiting : ∀ t ∈ db.testTasks.rows, t.status = .pending ∧ t.retryCount = 0 ∧ t.nextRetryAt = none
  parents : ∀ t ∈ db.testTasks.rows,
    (db.apiRequests.get? t.apiRequestId).isSome ∧ (db.testRuns.get? t.testRunId).isSome
  running : ∀ r ∈ db.testRuns.rows,
    r.status = .running ∧ r.completedTasks = 0 ∧ r.failedTasks = 0 ∧ 0 < r.totalTasks ∧
      db.tasksOf r.id (fun _ => true) = r.totalTasks
  noResult : db.requestResults = []

theorem fresh_launch {db : Database} (h : Launchable db) (workers : ℕ) :
    Fresh (launch db workers) where
  waiting := h.waiting
  parents := h.parents
  running := h.running
  enqueued := List.Perm.refl _
  undelivered := rfl
  noRetry := rfl
  noResult := h.noResult
  noRequest := rfl
  noVariable := rfl
  idle := fun _ hw => List.eq_of_mem_replicate hw
  retrySweeper := rfl
  reclaimSweeper := rfl

/-- A request without templates, assertions or extraction. -/
def plainRequest (id : UUID) : ApiRequest where
  id := id
  collectionId := 0
  name := "ping"
  method := .get
  url := "https://api.test/ping"
  headers := .empty
  queryParams := .empty
  body := none
  orderIndex := 0
  timeoutMs := 30000
  extractRules := []
  createdAt := 0

def startedRun (id : UUID) (totalTasks : ℕ) : TestRun where
  id := id
  collectionId := 0
  initiatedBy := 0
  status := .running
  runType := .manual
  startedAt := some 0
  completedAt := none
  totalTasks := totalTasks
  completedTasks := 0
  failedTasks := 0
  config := .empty
  createdAt := 0

def pendingTask (id run request : UUID) (sequenceOrder maxRetries : ℕ) : TestTask where
  id := id
  testRunId := run
  apiRequestId := request
  sequenceOrder := sequenceOrder
  dataRowIndex := none
  dataContext := none
  status := .pending
  retryCount := 0
  maxRetries := maxRetries
  nextRetryAt := none
  assignedWorkerId := none

/-- One run with a task for each of the requests `0, 1, ..`, in this order. -/
def plainRun (requests maxRetries : ℕ) : Database :=
  { Database.empty with
    apiRequests := ⟨(List.range requests).map plainRequest, by
      rw [List.map_map]
      exact (List.map_id (List.range requests)).symm ▸ List.nodup_range⟩
    testRuns := ⟨[startedRun 0 requests], by simp⟩
    testTasks := ⟨(List.range requests).map fun i => pendingTask i 0 i i maxRetries, by
      rw [List.map_map]
      exact (List.map_id (List.range requests)).symm ▸ List.nodup_range⟩ }

theorem launchable_plainRun {requests : ℕ} (h : 0 < requests) (maxRetries : ℕ) :
    Launchable (plainRun requests maxRetries) where
  waiting := by
    intro t ht
    obtain ⟨i, -, rfl⟩ := List.mem_map.1 ht
    exact ⟨rfl, rfl, rfl⟩
  parents := by
    intro t ht
    obtain ⟨i, hi, rfl⟩ := List.mem_map.1 ht
    refine ⟨Table.get?_isSome_iff.2 ?_, rfl⟩
    exact List.mem_map.2 ⟨plainRequest i, List.mem_map_of_mem hi, rfl⟩
  running := by
    intro r hr
    obtain rfl := List.mem_singleton.1 hr
    refine ⟨rfl, rfl, rfl, h, ?_⟩
    rw [Database.tasksOf, List.countP_eq_length.2]
    · simp [plainRun, startedRun]
    · intro t ht
      obtain ⟨i, -, rfl⟩ := List.mem_map.1 ht
      rfl
  noResult := rfl

/-- Library code for runs whose responses have no body. -/
def plainLibraries : Libraries where
  jsonLoads := fun _ => .error ⟨⟨.jsonDecode, "Expecting value: line 1 column 1 (char 0)"⟩, rfl⟩
  jsonPathFind := fun _ _ => .ok []
  jwtDecode := fun _ => .error ⟨⟨.pyJwt, "Not enough segments"⟩, rfl⟩
  urlHostname := fun _ => .ok (some "api.test")
  lower := fun s => s
  isPrintable := fun _ => true
  floatRepr := fun _ => "0.0"
  cronNext := fun _ _ now => .ok (now + 3600000000)

/-- Library code for runs whose responses are one JSON string. -/
def quotedLibraries : Libraries :=
  { plainLibraries with
    jsonLoads := fun text => .ok (.str (text.drop 1).dropLast)
    jsonPathFind := fun _ document => .ok [document] }

def tokenReply (token : String) : HttpReply :=
  .response 200 .empty (.ok (PyStr.ofString ("\"" ++ token ++ "\""))) 5

/-- The one task of a run, with three retries and one worker. -/
def oneTask : System := launch (plainRun 1 3) 1

theorem fresh_oneTask : Fresh oneTask := fresh_launch (launchable_plainRun (by decide) 3) 1

/-- A response without a body, and a request no answer came to. -/
def okReply : HttpReply := .response 200 .empty (.ok "") 5

def failedReply : HttpReply := .httpError "connection refused" 5

/-- The steps of one attempt, from its rows to what it returns. -/
def attempt (w : WorkerId) (i : ℕ) (reply : HttpReply) (now : Timestamp) : List Action :=
  [.slot w i .load, .slot w i (.readContext now), .slot w i (.send true now .ok),
    .slot w i (.settle reply now .ok .ok)]

/-- One iteration of a worker over one entry, up to its acknowledgement. -/
def iteration (w : WorkerId) (reply : HttpReply) (now : Timestamp) : List Action :=
  [.consume w 1 now] ++ attempt w 0 reply now ++ [.gather w, .write w now .ok]

/-- The acknowledgement is lost, and the reclaim sweeper puts the task back on the stream. -/
def lostAck (w : WorkerId) (now : Timestamp) : List Action :=
  [.ack w .raisedBefore, .reclaim 360000000 100 now, .reclaimEnqueue .ok, .reclaimAck .ok]

/-- One sweep of the retry set that finds one member due. -/
def retrySweep (now : Timestamp) : List Action := [.retryRange now 100, .retryRemove .ok, .retryEnqueue .ok]

/-- A task that fails, is retried and then completes. -/
def retriedOnce : List Action :=
  iteration 0 failedReply 0 ++ [.ack 0 .ok] ++ retrySweep 2000000 ++
    iteration 0 okReply 2000000 ++ [.ack 0 .ok]

/-- The two tasks of a run, and two workers. -/
def twoTasks : System := launch (plainRun 2 3) 2

theorem fresh_twoTasks : Fresh twoTasks := fresh_launch (launchable_plainRun (by decide) 3) 2

/-- Worker 0 takes both tasks. The first fails and its retry is due while the
second is still on its way; worker 1 takes the retry and completes it, and only
then does worker 0 write what it has. -/
def staleRetry : List Action :=
  [.consume 0 2 0] ++ attempt 0 0 failedReply 0 ++
    [.slot 0 1 .load, .slot 0 1 (.readContext 0), .slot 0 1 (.send true 0 .ok)] ++
    retrySweep 2000000 ++ iteration 1 okReply 2000000 ++ [.ack 1 .ok] ++
    [.slot 0 1 (.settle okReply 3000000 .ok .ok), .gather 0, .write 0 3000000 .ok, .ack 0 .ok]

/-- The platform without a rate limiter. -/
abbrev plainStep : System → Action → Option System := step plainLibraries false

end ApiTesting
