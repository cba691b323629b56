import ApiTesting.Spec.ResultWriter
import ApiTesting.Spec.VariableExtractor

/-! `worker.task_processor`: one attempt of one task. `processTask` is cut where
it waits for another process: it reads the rows, then the chain context, asks
the rate limiter, sends the request, and settles what came back with at most one
write to Redis. The replies it waits for are inputs. -/

namespace ApiTesting

open Keyed

/-- What the processes of the platform share, apart from the stream. -/
structure Stores where
  db : Database
  retryPending : RetryQueue
  contexts : RunContext

def rateLimitedRetryDelay : Timestamp := 1000000

def taskProcessingError (message : String) : Exn := ⟨.taskProcessing, message⟩

/-- The rows `process_task` has read. -/
structure TaskView where
  testTask : TestTask
  apiRequest : ApiRequest
  testRun : TestRun

def loadTask (db : Database) (testTaskId : UUID) : Except Exn TaskView :=
  match db.testTasks.get? testTaskId with
  | none => .error (taskProcessingError
      ("test_task " ++ uuidText testTaskId ++ " does not exist."))
  | some testTask =>
    match db.apiRequests.get? testTask.apiRequestId with
    | none => .error (taskProcessingError
        ("test_task " ++ uuidText testTaskId ++ " references api_request " ++
          uuidText testTask.apiRequestId ++ ", which does not exist."))
    | some apiRequest =>
      match db.testRuns.get? testTask.testRunId with
      | none => .error (taskProcessingError
          ("test_task " ++ uuidText testTaskId ++ " references test_run " ++
            uuidText testTask.testRunId ++ ", which does not exist."))
      | some testRun => .ok { testTask, apiRequest, testRun }

/-- `(test_run.config or {}).get("environment_variables", {})`. -/
def TestRun.environmentVariables (r : TestRun) : Dict String String :=
  (r.config.lookup "environment_variables").getD .empty

/-- The chain context, overridden by the data row of the task. -/
def TaskView.chainContext (v : TaskView) (now : Timestamp) (contexts : RunContext) :
    Dict String String :=
  let chain := contexts.getAll now v.testRun.id v.testTask.dataRowIndex
  match v.testTask.dataContext with
  | some row => if row.rows.isEmpty then chain else chain.update row
  | none => chain

/-- The data row goes before what earlier steps have saved. -/
theorem lookup_chainContext (v : TaskView) (now : Timestamp) (contexts : RunContext) (name : String) :
    (v.chainContext now contexts).lookup name =
      (v.testTask.dataContext.bind fun row => row.lookup name).or
        ((contexts.getAll now v.testRun.id v.testTask.dataRowIndex).lookup name) := by
  unfold TaskView.chainContext
  rcases v.testTask.dataContext with _ | row
  · rfl
  · simp only [Option.bind_some]
    split
    · rename_i hempty
      have hrows := List.isEmpty_iff.1 hempty
      have hnone : row.lookup name = none := by
        rw [Dict.lookup, Table.get?, hrows]
        rfl
      rw [hnone, Option.none_or]
    · exact Dict.lookup_update _ _ _

def TaskView.resolve (v : TaskView) (chain : Dict String String) : Except Exn ResolvedRequest :=
  resolveRequest chain v.testRun.environmentVariables v.apiRequest

section
variable (lib : Libraries)

/-- `RateLimiter.host_for_url`. -/
def hostForUrl (url : String) : Except Exn (Option String) :=
  ((lib.urlHostname url).map fun host => host.filter (· ≠ "")).mapError Subtype.val

/-- A call of `schedule_retry`. -/
def Stores.scheduleRetry (st : Stores) (taskId : UUID) (at_ : Timestamp) (call : Call) :
    Except Exn Unit × Stores :=
  (if call.returned then .ok () else .error callError,
    if call.tookEffect then { st with retryPending := st.retryPending.scheduleRetry taskId at_ }
    else st)

/-- `_check_rate_limit`; `allowed` is what `try_acquire` answers where it is asked. -/
def checkRateLimit (v : TaskView) (chain : Dict String String) (allowed : Bool) (now : Timestamp)
    (call : Call) (st : Stores) : Except Exn Unit × Stores :=
  match resolveTemplate chain v.testRun.environmentVariables v.apiRequest.url with
  | .error e => (if e.cls = .undefinedVariable then .ok () else .error e, st)
  | .ok url =>
    match hostForUrl lib url with
    | .error e => (.error e, st)
    | .ok none => (.ok (), st)
    | .ok (some host) =>
      if allowed then (.ok (), st)
      else
        match st.scheduleRetry v.testTask.id (now + rateLimitedRetryDelay) call with
        | (.error e, st') => (.error e, st')
        | (.ok (), st') => (.error ⟨.rateLimited, "Rate limit exceeded for host " ++
            reprStr lib host ++ "; task " ++ uuidText v.testTask.id ++
            " rescheduled in 1.0s without consuming a retry attempt."⟩, st')

/-- `list_by_request`. -/
def Database.assertionsOf (db : Database) (apiRequestId : UUID) : List Assertion :=
  orderBy Assertion.createdAt (db.assertions.rows.filter fun a => a.apiRequestId = apiRequestId)

structure Evaluation where
  assertionsPassed : Option Bool
  extractedVariables : Dict String PyStr
  failureReasons : List PyStr

/-- The reason there is where some assertion has failed. -/
def assertionReasons (outcomes : List AssertionOutcome) : List PyStr :=
  let failedDetails := (outcomes.filter fun o => !o.passed).map AssertionOutcome.detail
  if outcomes.all AssertionOutcome.passed then []
  else [toString failedDetails.length ++ " assertion(s) failed: " ++
    List.intercalate (PyStr.ofString "; ") failedDetails]

section
variable (assertions : List Assertion) (request : ApiRequest) (chain : Dict String String)
  (result : ExecutionResult)

/-- The assertions on a response, and the extraction from it. -/
def evaluateResponse : Except Exn Evaluation := do
  let outcomes ← evaluateAssertions lib assertions result
  let passed := outcomes.all AssertionOutcome.passed
  match extractVariables lib request.extractRules result chain with
  | .ok extracted => return ⟨some passed, extracted, assertionReasons outcomes⟩
  | .error e =>
    if e.cls = .extraction then
      return ⟨some passed, .empty,
        assertionReasons outcomes ++ [PyStr.ofString ("Variable extraction failed: " ++ e.message)]⟩
    else .error e

/-- The verdict on a result. -/
def evaluateResult : Except Exn Evaluation :=
  if ¬ result.succeeded then
    let message := result.errorMessage.getD []
    .ok ⟨none, .empty, [if message = [] then "Request failed with no error detail." else message]⟩
  else evaluateResponse lib assertions request chain result

end

/-- The client of Redis encodes the values of a mapping before it sends any of them. -/
def encodeVariables (variables_ : Dict String PyStr) : Except Exn (Dict String String) :=
  if variables_.rows.all fun p => p.2.encode?.isSome then
    .ok (variables_.mapValues fun value => value.encode?.getD "")
  else .error ⟨.other "UnicodeEncodeError", "'utf-8' codec can't encode character: surrogates not allowed"⟩

/-- What is merged where nothing has failed. -/
def Evaluation.encoded (ev : Evaluation) : Except Exn (Dict String String) :=
  if ev.failureReasons.isEmpty then encodeVariables ev.extractedVariables else .ok .empty

end

/-- The one write to Redis an attempt ends with. -/
inductive RedisWrite
  | nothing
  | merge (variables_ : Dict String String)
  | scheduleRetry (at_ : Timestamp)

/-- COMPLETED, RETRYING or FAILED, and the write that goes with it. -/
def decideOutcome (v : TaskView) (workerId : WorkerId) (result : ExecutionResult)
    (ev : Evaluation) (extracted : Dict String String) (now : Timestamp) : RedisWrite × TaskOutcome :=
  let attemptNumber := v.testTask.retryCount + 1
  let outcome (status : TestTaskStatus) (retryCount : ℕ) (nextRetryAt : Option Timestamp) :
      TaskOutcome :=
    { testTaskId := v.testTask.id
      testRunId := v.testRun.id
      attemptNumber
      newStatus := status
      statusCode := result.statusCode
      latencyMs := result.latencyMs
      responseHeaders := result.responseHeaders
      responseBody := result.responseBody
      assertionsPassed := ev.assertionsPassed
      errorMessage :=
        if ev.failureReasons.isEmpty then none
        else some (List.intercalate "; " ev.failureReasons)
      executedByWorkerId := workerId
      retryCount
      nextRetryAt }
  if ev.failureReasons.isEmpty then
    (if extracted.rows.isEmpty then .nothing else .merge extracted,
      outcome .completed v.testTask.retryCount none)
  else if attemptNumber ≤ v.testTask.maxRetries then
    let nextAttempt := now + computeBackoffSeconds v.testTask.retryCount * 1000000
    (.scheduleRetry nextAttempt, outcome .retrying attemptNumber (some nextAttempt))
  else (.nothing, outcome .failed attemptNumber none)

/-- The calls of a write: `HSET` and `EXPIRE`, or `ZADD` alone. -/
def Stores.perform (st : Stores) (v : TaskView) (write : RedisWrite) (now : Timestamp)
    (call expireCall : Call) : Except Exn Unit × Stores :=
  match write with
  | .nothing => (.ok (), st)
  | .scheduleRetry at_ => st.scheduleRetry v.testTask.id at_ call
  | .merge vars =>
    let key := RunContext.contextKey v.testRun.id v.testTask.dataRowIndex
    let st₁ :=
      if call.tookEffect then { st with contexts := st.contexts.hset now key vars } else st
    if call.returned then
      (if expireCall.returned then .ok () else .error callError,
        if expireCall.tookEffect then { st₁ with contexts := st₁.contexts.expire now key } else st₁)
    else (.error callError, st₁)

section
variable (lib : Libraries) (workerId : WorkerId) (v : TaskView) (chain : Dict String String)
  (reply : HttpReply) (now : Timestamp)

/-- What `process_task` makes of a result. -/
def judgeResult (assertions : List Assertion) (result : ExecutionResult) :
    Except Exn (RedisWrite × TaskOutcome) := do
  let ev ← evaluateResult lib assertions v.apiRequest chain result
  let extracted ← ev.encoded
  return decideOutcome v workerId result ev extracted now

/-- What `process_task` makes of the reply of the HTTP client. -/
def judgeReply (db : Database) : Except Exn (RedisWrite × TaskOutcome) := do
  let result ← execute v.apiRequest.timeoutMs (v.resolve chain) reply
  judgeResult lib workerId v chain now (db.assertionsOf v.apiRequest.id) result

/-- The same with the write to Redis done. -/
def settleTask (call expireCall : Call) (st : Stores) : Except Exn TaskOutcome × Stores :=
  match judgeReply lib workerId v chain reply now st.db with
  | .error e => (.error e, st)
  | .ok (write, outcome) =>
    match st.perform v write now call expireCall with
    | (.ok (), st') => (.ok outcome, st')
    | (.error e, st') => (.error e, st')

end

/-- The replies one attempt waits for. -/
structure Replies where
  contextReadAt : Timestamp
  allowed : Bool
  limitedAt : Timestamp
  limiterCall : Call
  reply : HttpReply
  settledAt : Timestamp
  call : Call
  expireCall : Call

/-- What the other processes make of the stores during the three waits of one attempt. -/
structure Others where
  beforeContext : Stores → Stores
  beforeLimit : Stores → Stores
  beforeSettle : Stores → Stores

/-- The rate limiter, where one is configured. -/
def passRateLimit (lib : Libraries) (rateLimiter : Bool) (v : TaskView)
    (chain : Dict String String) (allowed : Bool) (now : Timestamp) (call : Call) (st : Stores) :
    Except Exn Unit × Stores :=
  if rateLimiter then checkRateLimit lib v chain allowed now call st else (.ok (), st)

/-- `process_task` from its first read to what it returns or raises. -/
def processTask (lib : Libraries) (rateLimiter : Bool) (testTaskId : UUID) (workerId : WorkerId)
    (r : Replies) (others : Others) (st : Stores) : Except Exn TaskOutcome × Stores :=
  match loadTask st.db testTaskId with
  | .error e => (.error e, st)
  | .ok v =>
    let st₁ := others.beforeContext st
    let chain := v.chainContext r.contextReadAt st₁.contexts
    match passRateLimit lib rateLimiter v chain r.allowed r.limitedAt r.limiterCall
        (others.beforeLimit st₁) with
    | (.error e, st₂) => (.error e, st₂)
    | (.ok (), st₂) =>
      settleTask lib workerId v chain r.reply r.settledAt r.call r.expireCall (others.beforeSettle st₂)

end ApiTesting
