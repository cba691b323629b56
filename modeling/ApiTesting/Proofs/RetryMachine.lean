import ApiTesting.Proofs.Ledger
import Mathlib.Data.List.Chain

/-! The retry state machine of one task. Its deliveries come one after the other:
each is an attempt and the batch that commits its outcome, and the next one finds
the task off the retry set again. The machine is stated for itself (`Orderly`);
the deliveries follow it as long as every attempt can be answered. -/

namespace ApiTesting

open Keyed Fallible

/-- One delivery of a task to a worker: what it waits for, what the others do in
the meantime, and the batch its outcome is written in. -/
structure Delivery where
  workerId : WorkerId
  replies : Replies
  others : Others
  beforeWrite : Stores → Stores
  earlier : List TaskOutcome
  later : List TaskOutcome
  writtenAt : Timestamp
  writeCall : Call

/-- The outcomes of the other tasks of the batch. -/
def Delivery.mates (d : Delivery) : List TaskOutcome := d.earlier ++ d.later

/-- A delivery and the stores it finds. -/
structure Served where
  delivery : Delivery
  before : Stores

def Database.resultsOf (db : Database) (t : UUID) : List RequestResult :=
  db.requestResults.filter fun r => r.testTaskId = t

section
variable (lib : Libraries) (rateLimiter : Bool) (t : UUID)

namespace Served

variable (s : Served)

/-- The stores once the others have done what they do before the request is sent. -/
def undelayed : Stores := s.delivery.others.beforeLimit (s.delivery.others.beforeContext s.before)

/-- The stores an attempt that the rate limiter lets pass is settled in. -/
def settling : Stores := s.delivery.others.beforeSettle s.undelayed

/-- The chain context the attempt reads. -/
def chainContext (v : TaskView) : Dict String String :=
  v.chainContext s.delivery.replies.contextReadAt (s.delivery.others.beforeContext s.before).contexts

def processed : Except Exn TaskOutcome × Stores :=
  processTask lib rateLimiter t s.delivery.workerId s.delivery.replies s.delivery.others s.before

/-- The stores the batch is written to. -/
def atWrite : Stores := s.delivery.beforeWrite (s.processed lib rateLimiter t).2

/-- The stores the delivery leaves: its batch is written where there is an outcome. -/
def after : Stores :=
  match (s.processed lib rateLimiter t).1 with
  | .error _ => (s.processed lib rateLimiter t).2
  | .ok o =>
    { s.atWrite lib rateLimiter t with
      db := (runWrite (s.delivery.earlier ++ o :: s.delivery.later) s.delivery.writtenAt
        s.delivery.writeCall (s.atWrite lib rateLimiter t).db).2 }

/-- An attempt has been made, and this is its outcome. -/
def executed (o : TaskOutcome) : Prop := (s.processed lib rateLimiter t).1 = .ok o

/-- The rate limiter has put the task off. -/
def deferred : Prop := ∃ e, (s.processed lib rateLimiter t).1 = .error e ∧ e.cls = .rateLimited

end Served

/-! What the other processes may do, and how the deliveries follow each other. -/

/-- The rows and results of the task are the same, and its parents are still there. -/
structure SameRows (st st' : Stores) : Prop where
  row : st'.db.testTasks.get? t = st.db.testTasks.get? t
  request : ∀ id, (st.db.apiRequests.get? id).isSome → (st'.db.apiRequests.get? id).isSome
  run : ∀ id, (st.db.testRuns.get? id).isSome → (st'.db.testRuns.get? id).isSome
  results : st'.db.resultsOf t = st.db.resultsOf t

/-- The same, and the task is on the retry set as before. -/
structure Elsewhere (st st' : Stores) : Prop extends SameRows t st st' where
  score : st'.retryPending.lookup t = st.retryPending.lookup t

/-- Redis and Postgres answer, the others are about other tasks, and so is the rest
of the batch. -/
structure Undisturbed (s : Served) : Prop where
  limiterCall : s.delivery.replies.limiterCall = .ok
  call : s.delivery.replies.call = .ok
  expireCall : s.delivery.replies.expireCall = .ok
  writeCall : s.delivery.writeCall = .ok
  beforeContext : ∀ st, Elsewhere t st (s.delivery.others.beforeContext st)
  beforeLimit : ∀ st, Elsewhere t st (s.delivery.others.beforeLimit st)
  beforeSettle : ∀ st, Elsewhere t st (s.delivery.others.beforeSettle st)
  beforeWrite : ∀ st, SameRows t st (s.delivery.beforeWrite st)
  mates : ∀ o ∈ s.delivery.mates, o.testTaskId ≠ t ∧ hasParents (s.atWrite lib rateLimiter t).db o

/-- The task as it is delivered: its row as `n` failed attempts have left it, and
its entry off the retry set. -/
structure Delivered (maxRetries n : ℕ) (st : Stores) : Prop where
  row : ∃ row, st.db.testTasks.get? t = some row ∧ row.retryCount = n ∧
    row.maxRetries = maxRetries ∧ (st.db.apiRequests.get? row.apiRequestId).isSome ∧
    (st.db.testRuns.get? row.testRunId).isSome
  popped : st.retryPending.lookup t = none

/-- The task is delivered again because it was on the retry set, or because an
exception kept its entry from being acknowledged. -/
structure Redelivered (a b : Served) : Prop where
  cause : (∃ at_, (a.processed lib rateLimiter t).2.retryPending.lookup t = some at_) ∨
    ∃ e, (a.processed lib rateLimiter t).1 = .error e ∧ e.cls ≠ .rateLimited
  sameRows : SameRows t (a.after lib rateLimiter t) b.before
  popped : b.before.retryPending.lookup t = none

/-- The deliveries of a new task, each reading the row the one before it has committed. -/
structure Serial (maxRetries : ℕ) (deliveries : List Served) : Prop where
  created : ∀ s ∈ deliveries.head?, Delivered t maxRetries 0 s.before
  redelivered : deliveries.IsChain (Redelivered lib rateLimiter t)
  undisturbed : ∀ s ∈ deliveries, Undisturbed lib rateLimiter t s

/-! The state machine. -/

/-- The executed attempt after `n` others: its result, its row and its share in the
counters of the run. -/
structure Recorded (n : ℕ) (s : Served) (o : TaskOutcome) : Prop where
  executed : s.executed lib rateLimiter t o
  attemptNumber : o.attemptNumber = n + 1
  results : (s.after lib rateLimiter t).db.resultsOf t =
    s.before.db.resultsOf t ++ [buildRequestResult s.delivery.writtenAt o]
  row : ∃ row, s.before.db.testTasks.get? t = some row ∧ o.testRunId = row.testRunId ∧
    (s.after lib rateLimiter t).db.testTasks.get? t = some (row.record o)
  counters : ∃ r r', (s.atWrite lib rateLimiter t).db.testRuns.get? o.testRunId = some r ∧
    (s.after lib rateLimiter t).db.testRuns.get? o.testRunId = some r' ∧
    r'.completedTasks = r.completedTasks + tally s.delivery.mates o.testRunId (· = .completed) +
      (if o.newStatus = .completed then 1 else 0) ∧
    r'.failedTasks = r.failedTasks + tally s.delivery.mates o.testRunId (· = .failed) +
      (if o.newStatus = .failed then 1 else 0)

/-- The deliveries a task with `maxRetries` goes through after `n` executed attempts. -/
inductive Orderly (maxRetries : ℕ) : ℕ → List Served → Prop
  | waiting {n : ℕ} : Orderly maxRetries n []
  | deferred {n : ℕ} {s : Served} {rest : List Served} : s.deferred lib rateLimiter t →
      (s.after lib rateLimiter t).db = s.undelayed.db → Orderly maxRetries n rest →
      Orderly maxRetries n (s :: rest)
  | retrying {n : ℕ} {s : Served} {rest : List Served} {o : TaskOutcome} {at_ : Timestamp} :
      n < maxRetries → Recorded lib rateLimiter t n s o → o.newStatus = .retrying →
      o.retryCount = n + 1 → o.nextRetryAt = some at_ →
      (s.processed lib rateLimiter t).2.retryPending.lookup t = some at_ →
      s.delivery.replies.settledAt + min (2 ^ (n + 1)) 60 * 1000000 ≤ at_ →
      Orderly maxRetries (n + 1) rest → Orderly maxRetries n (s :: rest)
  | completed {n : ℕ} {s : Served} {o : TaskOutcome} : n ≤ maxRetries →
      Recorded lib rateLimiter t n s o → o.newStatus = .completed → o.retryCount = n →
      o.nextRetryAt = none → Orderly maxRetries n [s]
  | failed {s : Served} {o : TaskOutcome} : Recorded lib rateLimiter t maxRetries s o →
      o.newStatus = .failed → o.retryCount = maxRetries + 1 → o.nextRetryAt = none →
      Orderly maxRetries maxRetries [s]

/-! Which attempts can be answered. -/

/-- Values the client of Redis can encode. -/
def Encodable (variables_ : Dict String PyStr) : Prop := ∀ p ∈ variables_.rows, p.2.encode?.isSome

/-- A body that parses or is no JSON, rules that raise extraction errors only, and, where
all assertions pass, values that can be merged. -/
def ExecutionResult.Analysable (assertions : List Assertion) (rules : List ExtractRule)
    (chain : Dict String String) (result : ExecutionResult) : Prop :=
  ∃ body, tryParseJson lib result.responseBody = .ok body ∧
    Ends (·.cls = .extraction)
      (fun variables_ => (∀ a ∈ assertions, (evaluateOne lib a result body).passed) → Encodable variables_)
      (extractVariables lib rules result chain)

/-- A response whose text decodes and can be analysed, or an error the executor has a
handler for. -/
def HttpReply.Readable (assertions : List Assertion) (request : ApiRequest) (chain : Dict String String) :
    HttpReply → Prop
  | .response statusCode headers text latencyMs => ∃ body, text = .ok body ∧
      (ExecutionResult.mk (some statusCode) latencyMs (some headers) (some body) none).Analysable lib
        assertions request.extractRules chain
  | .timeout _ => True
  | .httpError _ _ => True
  | .raised _ => False

/-- The URL the rate limiter looks at. -/
def TaskView.limiterUrl (v : TaskView) (chain : Dict String String) : Except Exn String :=
  resolveTemplate chain v.testRun.environmentVariables v.apiRequest.url

def HostReadable (v : TaskView) (chain : Dict String String) : Prop :=
  rateLimiter → ∀ url, v.limiterUrl chain = .ok url → ∃ host, hostForUrl lib url = .ok host

/-- The host has no token left. -/
def Throttled (v : TaskView) (chain : Dict String String) (allowed : Bool) : Prop :=
  rateLimiter ∧ allowed = false ∧
    ∃ url host, v.limiterUrl chain = .ok url ∧ hostForUrl lib url = .ok (some host)

/-- The host parses where the limiter looks at it, and the reply can be read where
the request is sent. -/
structure Answerable (assertions : List Assertion) (v : TaskView) (chain : Dict String String)
    (r : Replies) : Prop where
  host : HostReadable lib rateLimiter v chain
  reply : Throttled lib rateLimiter v chain r.allowed ∨
    ∀ request, v.resolve chain = .ok request → r.reply.Readable lib assertions v.apiRequest chain

/-- The assertions of a request are read once its reply is there. -/
def Served.answerable (s : Served) : Prop :=
  ∀ v, loadTask s.before.db t = .ok v →
    Answerable lib rateLimiter (s.settling.db.assertionsOf v.apiRequest.id) v (s.chainContext v)
      s.delivery.replies

end

section
variable {lib : Libraries} {rateLimiter : Bool} {t : UUID} {v : TaskView} {chain : Dict String String}
  {st st' st'' : Stores} {m n : ℕ} {s : Served}

/-! What the reply of the target makes of an attempt. -/

theorem encoded_isOk_iff {ev : Evaluation} :
    (∃ extracted, ev.encoded = .ok extracted) ↔ (ev.failureReasons = [] → Encodable ev.extractedVariables) := by
  unfold Evaluation.encoded encodeVariables Encodable
  by_cases hreasons : ev.failureReasons = []
  · rw [if_pos (List.isEmpty_iff.2 hreasons), ← List.all_eq_true]
    split
    · rename_i hall
      exact iff_of_true ⟨_, rfl⟩ fun _ => hall
    · rename_i hall
      exact iff_of_false (fun h => nomatch h) fun h => hall (h hreasons)
  · simp [hreasons]

/-- A failed request gives its reason, whatever the libraries do. -/
theorem judgeResult_of_failed {assertions : List Assertion} {result : ExecutionResult}
    (h : result.errorMessage.isSome) (w : WorkerId) (now : Timestamp) :
    ∃ p, judgeResult lib w v chain now assertions result = .ok p := by
  obtain ⟨message, hmessage⟩ := Option.isSome_iff_exists.1 h
  rw [judgeResult, evaluateResult_of_failed lib hmessage]
  exact ⟨_, rfl⟩

/-- A response gets a verdict just when it can be analysed. -/
theorem judgeResult_isOk_iff {assertions : List Assertion} {result : ExecutionResult}
    (hno : result.errorMessage = none) (w : WorkerId) (now : Timestamp) :
    (∃ p, judgeResult lib w v chain now assertions result = .ok p) ↔
      result.Analysable lib assertions v.apiRequest.extractRules chain := by
  have hencoded : (∃ p, judgeResult lib w v chain now assertions result = .ok p) ↔
      ∃ ev, evaluateResult lib assertions v.apiRequest chain result = .ok ev ∧
        (ev.failureReasons = [] → Encodable ev.extractedVariables) := by
    simp only [judgeResult, bind_eq_ok_iff, ← encoded_isOk_iff]
    constructor
    · rintro ⟨p, ev, hev, extracted, hextracted, -⟩
      exact ⟨ev, hev, extracted, hextracted⟩
    · rintro ⟨ev, hev, extracted, hextracted⟩
      exact ⟨_, ev, hev, extracted, hextracted, rfl⟩
  rw [hencoded, ExecutionResult.Analysable, evaluateResult_of_answered lib hno, evaluateResponse,
    evaluateAssertions]
  rcases tryParseJson lib result.responseBody with e | body
  · simp [bind, Except.bind]
  have hpass : assertionReasons (assertions.map fun a => evaluateOne lib a result body) = [] ↔
      ∀ a ∈ assertions, (evaluateOne lib a result body).passed := by
    rw [assertionReasons_eq_nil_iff, List.forall_mem_map]
  rcases extractVariables lib v.apiRequest.extractRules result chain with e | extracted
  · by_cases he : e.cls = .extraction <;> simp [he, bind, Except.bind, pure, Except.pure]
  · simp [bind, Except.bind, pure, Except.pure, hpass]

/-- An attempt has a verdict just when its reply can be read. -/
theorem judgeReply_isOk_iff (w : WorkerId) {reply : HttpReply} (now : Timestamp) (db : Database) :
    (∃ p, judgeReply lib w v chain reply now db = .ok p) ↔ ∀ request, v.resolve chain = .ok request →
      reply.Readable lib (db.assertionsOf v.apiRequest.id) v.apiRequest chain := by
  have hsplit : (∃ p, judgeReply lib w v chain reply now db = .ok p) ↔
      ∃ result, execute v.apiRequest.timeoutMs (v.resolve chain) reply = .ok result ∧
        ∃ p, judgeResult lib w v chain now (db.assertionsOf v.apiRequest.id) result = .ok p := by
    simp only [judgeReply, bind_eq_ok_iff]
    constructor
    · rintro ⟨p, result, hx, hp⟩
      exact ⟨result, hx, p, hp⟩
    · rintro ⟨result, hx, p, hp⟩
      exact ⟨p, result, hx, hp⟩
  rw [hsplit]
  rcases hr : v.resolve chain with e | request
  · have hcls : e.cls = .undefinedVariable := resolveRequest_raises _ _ _ e hr
    simp only [execute, hcls, if_true]
    refine iff_of_true ⟨_, rfl, judgeResult_of_failed rfl w now⟩ ?_
    intro _ h
    cases h
  · simp only [Except.ok.injEq, forall_eq']
    cases reply with
    | response statusCode headers text latencyMs =>
      rcases text with e | text
      · simp [execute, HttpReply.Readable]
      · simp only [execute, HttpReply.Readable, Except.ok.injEq, exists_eq_left']
        exact judgeResult_isOk_iff rfl w now
    | timeout latencyMs => exact iff_of_true ⟨_, rfl, judgeResult_of_failed rfl w now⟩ trivial
    | httpError message latencyMs => exact iff_of_true ⟨_, rfl, judgeResult_of_failed rfl w now⟩ trivial
    | raised e =>
      simp only [execute, HttpReply.Readable, iff_false]
      rintro ⟨result, h, -⟩
      cases h

theorem passRateLimit_of_throttled {allowed : Bool} (h : Throttled lib rateLimiter v chain allowed)
    (now : Timestamp) (st : Stores) :
    ∃ e, e.cls = .rateLimited ∧ passRateLimit lib rateLimiter v chain allowed now .ok st = (.error e,
      { st with
        retryPending := st.retryPending.scheduleRetry v.testTask.id (now + rateLimitedRetryDelay) }) := by
  obtain ⟨hlim, rfl, url, host, hu, hh⟩ := h
  rw [TaskView.limiterUrl] at hu
  refine ⟨⟨.rateLimited, "Rate limit exceeded for host " ++ reprStr lib host ++ "; task " ++
    uuidText v.testTask.id ++ " rescheduled in 1.0s without consuming a retry attempt."⟩, rfl, ?_⟩
  simp only [passRateLimit, hlim, if_true, checkRateLimit, hu, hh, Bool.false_eq_true, if_false]
  rfl

theorem passRateLimit_of_not_throttled {allowed : Bool}
    (h : ¬ Throttled lib rateLimiter v chain allowed) (hhost : HostReadable lib rateLimiter v chain)
    (now : Timestamp) (call : Call) (st : Stores) :
    passRateLimit lib rateLimiter v chain allowed now call st = (.ok (), st) := by
  unfold passRateLimit
  split
  · rename_i hlim
    unfold checkRateLimit
    split
    · rename_i e hu
      rw [if_pos (resolveTemplate_raises _ _ _ e hu)]
    · rename_i url hu
      obtain ⟨host, hh⟩ := hhost hlim url hu
      rw [hh]
      cases host with
      | none => rfl
      | some host =>
        cases allowed with
        | true => rfl
        | false => exact absurd ⟨hlim, rfl, url, host, hu, hh⟩ h
  · rfl

/-- A URL whose host does not parse ends the attempt. -/
theorem passRateLimit_of_not_hostReadable (h : ¬ HostReadable lib rateLimiter v chain)
    (allowed : Bool) (now : Timestamp) (call : Call) (st : Stores) :
    ∃ e, e.cls ≠ .rateLimited ∧
      passRateLimit lib rateLimiter v chain allowed now call st = (.error e, st) := by
  simp only [HostReadable, not_forall] at h
  obtain ⟨hlim, url, hu, hno⟩ := h
  rw [TaskView.limiterUrl] at hu
  rcases hh : hostForUrl lib url with e | host
  · refine ⟨e, ?_, ?_⟩
    · intro he
      have hlib : e.cls.ofProgram = false := hostForUrl_raises lib url e hh
      rw [he] at hlib
      cases hlib
    · simp only [passRateLimit, hlim, if_true, checkRateLimit, hu, hh]
  · exact absurd ⟨host, hh⟩ hno

/-! One delivery. -/

theorem SameRows.refl (st : Stores) : SameRows t st st := ⟨rfl, fun _ h => h, fun _ h => h, rfl⟩

theorem SameRows.trans (h : SameRows t st st') (h' : SameRows t st' st'') : SameRows t st st'' where
  row := h'.row.trans h.row
  request id hid := h'.request id (h.request id hid)
  run id hid := h'.run id (h.run id hid)
  results := h'.results.trans h.results

theorem SameRows.of_db (h : st'.db = st.db) : SameRows t st st' := by
  constructor <;> simp [h]

theorem Elsewhere.trans (h : Elsewhere t st st') (h' : Elsewhere t st' st'') : Elsewhere t st st'' where
  toSameRows := h.toSameRows.trans h'.toSameRows
  score := h'.score.trans h.score

theorem Delivered.loadTask (h : Delivered t m n st) : ∃ v, loadTask st.db t = .ok v ∧
    v.testTask.id = t ∧ v.testTask.retryCount = n ∧ v.testTask.maxRetries = m := by
  obtain ⟨row, hrow, hn, hm, hq, hr⟩ := h.row
  obtain ⟨v, hv⟩ := loadTask_isOk hrow hq hr
  obtain ⟨ht, -, -⟩ := loadTask_eq_ok_iff.1 hv
  obtain rfl := Option.some.inj (hrow.symm.trans ht)
  exact ⟨v, hv, (Table.get?_eq_some_iff.1 hrow).2, hn, hm⟩

theorem Undisturbed.undelayed (h : Undisturbed lib rateLimiter t s) :
    Elsewhere t s.before s.undelayed := (h.beforeContext _).trans (h.beforeLimit _)

theorem processed_of_passed (hload : loadTask s.before.db t = .ok v)
    (hpass : passRateLimit lib rateLimiter v (s.chainContext v) s.delivery.replies.allowed
      s.delivery.replies.limitedAt s.delivery.replies.limiterCall s.undelayed = (.ok (), s.undelayed)) :
    s.processed lib rateLimiter t = settleTask lib s.delivery.workerId v (s.chainContext v)
      s.delivery.replies.reply s.delivery.replies.settledAt s.delivery.replies.call
      s.delivery.replies.expireCall (s.delivery.others.beforeSettle s.undelayed) := by
  unfold Served.chainContext Served.undelayed at hpass
  simp only [Served.processed, processTask, hload, hpass]
  rfl

theorem processed_of_stopped (hload : loadTask s.before.db t = .ok v) {e : Exn}
    (hpass : passRateLimit lib rateLimiter v (s.chainContext v) s.delivery.replies.allowed
      s.delivery.replies.limitedAt s.delivery.replies.limiterCall s.undelayed = (.error e, st)) :
    s.processed lib rateLimiter t = (.error e, st) := by
  unfold Served.chainContext Served.undelayed at hpass
  simp only [Served.processed, processTask, hload, hpass]

theorem settleTask_db (w : WorkerId) (reply : HttpReply) (now : Timestamp) (call expireCall : Call)
    (st : Stores) : (settleTask lib w v chain reply now call expireCall st).2.db = st.db := by
  rcases hj : judgeReply lib w v chain reply now st.db with e | ⟨write, o⟩
  · simp only [settleTask, hj]
  · rw [settleTask_of_ok hj]
    exact st.perform_db v write now call expireCall

/-- The attempt itself changes no row. -/
theorem sameRows_processed (hu : Undisturbed lib rateLimiter t s)
    (hload : loadTask s.before.db t = .ok v) :
    SameRows t s.before (s.processed lib rateLimiter t).2 := by
  have hlim := passRateLimit_limited lib rateLimiter v (s.chainContext v) s.delivery.replies.allowed
    s.delivery.replies.limitedAt s.delivery.replies.limiterCall s.undelayed
  have hdb := limited_db hlim
  rcases hp : passRateLimit lib rateLimiter v (s.chainContext v) s.delivery.replies.allowed
      s.delivery.replies.limitedAt s.delivery.replies.limiterCall s.undelayed with ⟨e | u, st⟩
  · rw [hp] at hdb
    rw [processed_of_stopped hload hp]
    exact hu.undelayed.toSameRows.trans (.of_db hdb)
  · rw [hp] at hlim
    cases hlim
    rw [processed_of_passed hload hp]
    refine (hu.undelayed.toSameRows.trans (hu.beforeSettle _).toSameRows).trans (.of_db ?_)
    exact settleTask_db _ _ _ _ _ _

/-- What an executed attempt of the delivery commits. -/
theorem recorded_of_executed (hu : Undisturbed lib rateLimiter t s)
    (hload : loadTask s.before.db t = .ok v) {write : RedisWrite} {o : TaskOutcome}
    (ho : s.executed lib rateLimiter t o) (hc : Concludes v write o) :
    Recorded lib rateLimiter t v.testTask.retryCount s o := by
  obtain ⟨hrow, hreq, hrun⟩ := loadTask_eq_ok_iff.1 hload
  have hid : o.testTaskId = t := hc.testTaskId.trans (Table.get?_eq_some_iff.1 hrow).2
  have horun : o.testRunId = v.testTask.testRunId :=
    hc.testRunId.trans (Table.get?_eq_some_iff.1 hrun).2
  have hwrite : SameRows t s.before (s.atWrite lib rateLimiter t) :=
    (sameRows_processed hu hload).trans (hu.beforeWrite _)
  have hrow' := hwrite.row.trans hrow
  have hmates : ∀ q ∈ s.delivery.earlier ++ o :: s.delivery.later, q = o ∨ q ∈ s.delivery.mates := by
    intro q hq
    simp only [List.mem_append, List.mem_cons, Delivery.mates] at hq ⊢
    tauto
  have hparents : ∀ q ∈ s.delivery.earlier ++ o :: s.delivery.later,
      hasParents (s.atWrite lib rateLimiter t).db q := by
    intro q hq
    rcases hmates q hq with rfl | hq
    · rw [hasParents, hid, hrow', horun]
      exact hwrite.run _ (by rw [hrun]; rfl)
    · exact (hu.mates q hq).2
  obtain ⟨db, hdb⟩ := writeBatch_isOk s.delivery.writtenAt hparents
  have hafter : (s.after lib rateLimiter t).db = db := by
    rw [Served.after, ho, hu.writeCall]
    simp only [runWrite, hdb]
  have hw := written_of_writeBatch hdb
  have honly : (s.delivery.earlier ++ o :: s.delivery.later).filter (fun q => q.testTaskId = t) = [o] := by
    have hnil : ∀ l : List TaskOutcome, (∀ q ∈ l, q ∈ s.delivery.mates) →
        l.filter (fun q => q.testTaskId = t) = [] := by
      intro l hl
      rw [List.filter_eq_nil_iff]
      intro q hq
      simpa using (hu.mates q (hl q hq)).1
    rw [List.filter_append, List.filter_cons_of_pos (by simpa using hid),
      hnil _ fun q hq => List.mem_append_left _ hq, hnil _ fun q hq => List.mem_append_right _ hq]
    rfl
  have htally : ∀ p, tally (s.delivery.earlier ++ o :: s.delivery.later) o.testRunId p =
      tally s.delivery.mates o.testRunId p + if p o.newStatus then 1 else 0 := by
    intro p
    simp only [tally, Delivery.mates, List.countP_append, List.countP_cons, true_and,
      decide_eq_true_eq]
    omega
  refine ⟨ho, hc.attemptNumber, ?_, ⟨_, hrow, horun, ?_⟩, ?_⟩
  · rw [hafter, Database.resultsOf, hw.requestResults, List.filter_append, List.filter_map]
    change _ ++ ((s.delivery.earlier ++ o :: s.delivery.later).filter
      (fun q => q.testTaskId = t)).map _ = _
    rw [honly, ← hwrite.results]
    rfl
  · rw [hafter, hw.testTasks, get?_foldl_applyOutcome, hrow', honly]
    rfl
  · obtain ⟨r, hr⟩ := Option.isSome_iff_exists.1 (hwrite.run v.testTask.testRunId (by rw [hrun]; rfl))
    rw [← horun] at hr
    obtain ⟨r', hr', -, -, hcompleted, hfailed, -⟩ := hw.get?_testRuns hr
    refine ⟨r, r', hr, by rw [hafter]; exact hr', ?_, ?_⟩
    · rw [hcompleted, htally, Nat.add_assoc]
      simp
    · rw [hfailed, htally, Nat.add_assoc]
      simp

theorem processed_of_throttled (hu : Undisturbed lib rateLimiter t s)
    (hload : loadTask s.before.db t = .ok v)
    (h : Throttled lib rateLimiter v (s.chainContext v) s.delivery.replies.allowed) :
    s.deferred lib rateLimiter t ∧ (s.after lib rateLimiter t).db = s.undelayed.db ∧
      SameRows t s.before (s.after lib rateLimiter t) := by
  obtain ⟨e, hcls, hp⟩ := passRateLimit_of_throttled h s.delivery.replies.limitedAt s.undelayed
  rw [← hu.limiterCall] at hp
  have hproc := processed_of_stopped hload hp
  have hafter : s.after lib rateLimiter t = (s.processed lib rateLimiter t).2 := by
    simp only [Served.after, hproc]
  refine ⟨⟨e, by rw [hproc], hcls⟩, by rw [hafter, hproc], ?_⟩
  rw [hafter]
  exact sameRows_processed hu hload

/-- An attempt that is not put off and whose reply can be read is executed. -/
theorem processed_of_answerable (hu : Undisturbed lib rateLimiter t s)
    (hload : loadTask s.before.db t = .ok v)
    (h : ¬ Throttled lib rateLimiter v (s.chainContext v) s.delivery.replies.allowed)
    (ha : Answerable lib rateLimiter (s.settling.db.assertionsOf v.apiRequest.id) v (s.chainContext v)
      s.delivery.replies) :
    ∃ write o, s.executed lib rateLimiter t o ∧ Concludes v write o ∧
      (s.processed lib rateLimiter t).2.retryPending =
        (match write with
        | .scheduleRetry at_ =>
          (s.delivery.others.beforeSettle s.undelayed).retryPending.scheduleRetry v.testTask.id at_
        | _ => (s.delivery.others.beforeSettle s.undelayed).retryPending) ∧
      ∀ at_, write = .scheduleRetry at_ → at_ =
        s.delivery.replies.settledAt + computeBackoffSeconds v.testTask.retryCount * 1000000 := by
  have hp := passRateLimit_of_not_throttled h ha.host s.delivery.replies.limitedAt
    s.delivery.replies.limiterCall s.undelayed
  obtain ⟨⟨write, o⟩, hj⟩ := (judgeReply_isOk_iff s.delivery.workerId
    s.delivery.replies.settledAt (s.delivery.others.beforeSettle s.undelayed).db).2
    (ha.reply.resolve_left h)
  have hproc := processed_of_passed hload hp
  rw [settleTask_of_ok hj, hu.call, hu.expireCall] at hproc
  refine ⟨write, o, ?_, judgeReply_concludes hj, ?_, ?_⟩
  · rw [Served.executed, hproc]
    cases write <;> rfl
  · rw [hproc, Stores.perform_retryPending]
    cases write <;> rfl
  · rintro at_ rfl
    obtain ⟨result, ev, extracted, -, -, -, hd⟩ := judgeReply_eq_ok hj
    unfold decideOutcome at hd
    dsimp only at hd
    split at hd
    · split at hd <;> cases hd
    · split at hd <;> cases hd
      rfl

/-! All deliveries. -/

theorem Delivered.of_sameRows (h : Delivered t m n st) (hs : SameRows t st st')
    (hp : st'.retryPending.lookup t = none) : Delivered t m n st' := by
  obtain ⟨row, hrow, hn, hm, hreq, hrun⟩ := h.row
  exact ⟨⟨row, hs.row.trans hrow, hn, hm, hs.request _ hreq, hs.run _ hrun⟩, hp⟩

theorem parents_after (hu : Undisturbed lib rateLimiter t s) (hload : loadTask s.before.db t = .ok v) :
    (∀ id, (s.before.db.apiRequests.get? id).isSome →
      ((s.after lib rateLimiter t).db.apiRequests.get? id).isSome) ∧
    ∀ id, (s.before.db.testRuns.get? id).isSome →
      ((s.after lib rateLimiter t).db.testRuns.get? id).isSome := by
  have hproc := sameRows_processed hu hload
  have hwrite := hproc.trans (hu.beforeWrite _)
  unfold Served.after
  split
  · exact ⟨hproc.request, hproc.run⟩
  · rename_i o _
    rcases hdb : writeBatch (s.delivery.earlier ++ o :: s.delivery.later) s.delivery.writtenAt
        (s.atWrite lib rateLimiter t).db with e | db
    · simp only [runWrite, hu.writeCall, hdb]
      exact ⟨hwrite.request, hwrite.run⟩
    · simp only [runWrite, hu.writeCall, hdb]
      have hw := written_of_writeBatch hdb
      refine ⟨fun id hid => ?_, fun id hid => ?_⟩
      · rw [hw.apiRequests]
        exact hwrite.request id hid
      · rw [Table.get?_isSome_iff, hw.runKeys, ← Table.get?_isSome_iff]
        exact hwrite.run id hid

/-- After an executed attempt the row counts what the outcome says. -/
theorem Recorded.delivered_next {o : TaskOutcome} {b : Served}
    (h : Recorded lib rateLimiter t n s o) (hd : Delivered t m n s.before)
    (hu : Undisturbed lib rateLimiter t s) (hb : Redelivered lib rateLimiter t s b) :
    Delivered t m o.retryCount b.before := by
  obtain ⟨row, hrow, -, hm, hreq, hrun⟩ := hd.row
  obtain ⟨row', hrow', -, hafter⟩ := h.row
  obtain rfl := Option.some.inj (hrow.symm.trans hrow')
  obtain ⟨v, hload, -⟩ := hd.loadTask
  obtain ⟨hreqs, hruns⟩ := parents_after hu hload
  exact ⟨⟨row.record o, hb.sameRows.row.trans hafter, rfl, hm, hb.sameRows.request _ (hreqs _ hreq),
    hb.sameRows.run _ (hruns _ hrun)⟩, hb.popped⟩

/-- A task that is on no retry set and was acknowledged is not delivered again. -/
theorem not_redelivered {o : TaskOutcome} {b : Served} (ho : s.executed lib rateLimiter t o)
    (hnone : (s.processed lib rateLimiter t).2.retryPending.lookup t = none) :
    ¬ Redelivered lib rateLimiter t s b := by
  rintro ⟨⟨at_, hat⟩ | ⟨e, he, -⟩, -, -⟩
  · rw [hnone] at hat
    cases hat
  · rw [ho] at he
    cases he

theorem orderly_of_answerable {deliveries : List Served} (hn : n ≤ m)
    (hfirst : ∀ s ∈ deliveries.head?, Delivered t m n s.before)
    (hchain : deliveries.IsChain (Redelivered lib rateLimiter t))
    (hu : ∀ s ∈ deliveries, Undisturbed lib rateLimiter t s)
    (ha : ∀ s ∈ deliveries, s.answerable lib rateLimiter t) :
    Orderly lib rateLimiter t m n deliveries := by
  induction deliveries generalizing n with
  | nil => exact .waiting
  | cons s rest ih =>
    have hd : Delivered t m n s.before := hfirst s rfl
    have hus := hu s List.mem_cons_self
    obtain ⟨v, hload, hid, hcount, hmax⟩ := hd.loadTask
    have has := ha s List.mem_cons_self v hload
    have hrest : ∀ k ≤ m, (∀ b ∈ rest.head?, Delivered t m k b.before) →
        Orderly lib rateLimiter t m k rest := fun k hk hnext =>
      ih hk hnext (List.isChain_cons.1 hchain).2 (fun b hb => hu b (List.mem_cons_of_mem s hb))
        fun b hb => ha b (List.mem_cons_of_mem s hb)
    have hnext : ∀ b ∈ rest.head?, Redelivered lib rateLimiter t s b := (List.isChain_cons.1 hchain).1
    by_cases hthr : Throttled lib rateLimiter v (s.chainContext v) s.delivery.replies.allowed
    · obtain ⟨hdef, hdb, hrows⟩ := processed_of_throttled hus hload hthr
      refine .deferred hdef hdb (hrest n hn fun b hb => ?_)
      exact hd.of_sameRows (hrows.trans (hnext b hb).sameRows) (hnext b hb).popped
    · obtain ⟨write, o, ho, hc, hpending, hat⟩ := processed_of_answerable hus hload hthr has
      have hrec := recorded_of_executed hus hload ho hc
      rw [hcount] at hrec
      have hscore : (s.delivery.others.beforeSettle s.undelayed).retryPending.lookup t = none :=
        ((hus.undelayed.trans (hus.beforeSettle _)).score).trans hd.popped
      -- what is not on the retry set after the attempt is not delivered again
      have hlast : (s.processed lib rateLimiter t).2.retryPending.lookup t = none → rest = [] := by
        intro hnone
        rcases rest with _ | ⟨b, rest⟩
        · rfl
        · exact absurd (hnext b rfl) (not_redelivered ho hnone)
      cases hc.verdict with
      | completed hwrite hs hk hat' =>
        obtain rfl := hlast (by
          rw [hpending]
          cases write with
          | scheduleRetry at_ => exact absurd rfl (hwrite at_)
          | _ => exact hscore)
        exact .completed hn hrec hs (hk.trans hcount) hat'
      | @retrying at_ _ hlt hs hk hat' =>
        have hk' : o.retryCount = n + 1 := by rw [hk, hcount]
        refine .retrying (by omega) hrec hs hk' hat' ?_ ?_ (hrest (n + 1) (by omega) fun b hb => ?_)
        · rw [hpending]
          simp only [RetryQueue.scheduleRetry, Dict.lookup_put, hid, if_true]
        · rw [hat at_ rfl, hcount, computeBackoffSeconds, pow_succ']
        · rw [← hk']
          exact hrec.delivered_next hd hus (hnext b hb)
      | failed hle hs hk hat' =>
        obtain rfl := hlast (by rw [hpending]; exact hscore)
        obtain rfl : n = m := by omega
        exact .failed hrec hs (by rw [hk, hcount]) hat'

/-- A delivery that is put off or executed could be answered. -/
theorem answerable_of_processed
    (h : s.deferred lib rateLimiter t ∨ ∃ o, s.executed lib rateLimiter t o) :
    s.answerable lib rateLimiter t := by
  intro v hload
  -- the other way to end is an exception that is not `RateLimitedError`
  have hends : ∀ e, (s.processed lib rateLimiter t).1 = .error e → e.cls = .rateLimited := by
    intro e he
    rcases h with ⟨e', he', hcls⟩ | ⟨o, ho⟩
    · rw [he] at he'
      cases he'
      exact hcls
    · rw [ho] at he
      cases he
  have hhost : HostReadable lib rateLimiter v (s.chainContext v) := by
    by_contra hno
    obtain ⟨e, hcls, hp⟩ := passRateLimit_of_not_hostReadable hno s.delivery.replies.allowed
      s.delivery.replies.limitedAt s.delivery.replies.limiterCall s.undelayed
    exact hcls (hends e (by rw [processed_of_stopped hload hp]))
  refine ⟨hhost, ?_⟩
  by_cases hthr : Throttled lib rateLimiter v (s.chainContext v) s.delivery.replies.allowed
  · exact .inl hthr
  · refine .inr (judgeReply_isOk_iff s.delivery.workerId s.delivery.replies.settledAt
      (s.delivery.others.beforeSettle s.undelayed).db |>.1 ?_)
    have hproc := processed_of_passed hload (passRateLimit_of_not_throttled hthr hhost
      s.delivery.replies.limitedAt s.delivery.replies.limiterCall s.undelayed)
    rcases hj : judgeReply lib s.delivery.workerId v (s.chainContext v) s.delivery.replies.reply
        s.delivery.replies.settledAt (s.delivery.others.beforeSettle s.undelayed).db with e | p
    · have hraise : (s.processed lib rateLimiter t).1 = .error e := by
        rw [hproc]
        simp only [settleTask, hj]
      exact absurd (.inr (hends e hraise)) (judgeReply_raises _ _ _ _ _ _ _ e hj)
    · exact ⟨p, rfl⟩

theorem answerable_of_orderly {deliveries : List Served} (h : Orderly lib rateLimiter t m n deliveries) :
    ∀ s ∈ deliveries, s.answerable lib rateLimiter t := by
  induction h with
  | waiting => simp
  | deferred hdef _ _ ih => exact List.forall_mem_cons.2 ⟨answerable_of_processed (.inl hdef), ih⟩
  | retrying _ hrec _ _ _ _ _ _ ih =>
    exact List.forall_mem_cons.2 ⟨answerable_of_processed (.inr ⟨_, hrec.executed⟩), ih⟩
  | completed _ hrec =>
    exact List.forall_mem_singleton.2 (answerable_of_processed (.inr ⟨_, hrec.executed⟩))
  | failed hrec =>
    exact List.forall_mem_singleton.2 (answerable_of_processed (.inr ⟨_, hrec.executed⟩))

/-- The serial deliveries of a new task follow the state machine just when each of
them can be answered: the host of its URL parses where the limiter looks at it,
and its reply is one `process_task` can read. -/
theorem orderly_iff_answerable {deliveries : List Served}
    (h : Serial lib rateLimiter t m deliveries) :
    Orderly lib rateLimiter t m 0 deliveries ↔ ∀ s ∈ deliveries, s.answerable lib rateLimiter t :=
  ⟨answerable_of_orderly,
    orderly_of_answerable (Nat.zero_le m) h.created h.redelivered h.undisturbed⟩

end

/-- A delivery in a batch of its own, with nobody else at work. -/
def alone (allowed : Bool) (reply : HttpReply) (now : Timestamp) : Delivery where
  workerId := 0
  replies := ⟨now, allowed, now, .ok, reply, now, .ok, .ok⟩
  others := ⟨id, id, id⟩
  beforeWrite := id
  earlier := []
  later := []
  writtenAt := now
  writeCall := .ok

theorem undisturbed_alone (lib : Libraries) (rateLimiter : Bool) (t : UUID) (allowed : Bool)
    (reply : HttpReply) (now : Timestamp) (st : Stores) :
    Undisturbed lib rateLimiter t ⟨alone allowed reply now, st⟩ where
  limiterCall := rfl
  call := rfl
  expireCall := rfl
  writeCall := rfl
  beforeContext st := ⟨.refl st, rfl⟩
  beforeLimit st := ⟨.refl st, rfl⟩
  beforeSettle st := ⟨.refl st, rfl⟩
  beforeWrite st := .refl st
  mates o ho := by cases ho

/-- What one sweep of the retry set leaves. -/
def Stores.popped (st : Stores) (t : UUID) : Stores :=
  { st with retryPending := st.retryPending.remove [t] }

theorem readable_okReply (lib : Libraries) (assertions : List Assertion) {request : ApiRequest}
    (h : request.extractRules = []) (chain : Dict String String) :
    okReply.Readable lib assertions request chain := by
  refine ⟨[], rfl, .null, rfl, ?_⟩
  rw [h]
  exact fun _ p hp => nomatch hp

def oneTaskStores : Stores := ⟨plainRun 1 3, .empty, .empty⟩

def firstFails : Served := ⟨alone true failedReply 0, oneTaskStores⟩

def secondDeferred : Served :=
  ⟨alone false okReply 2000000, (firstFails.after plainLibraries true 0).popped 0⟩

def thirdSucceeds : Served :=
  ⟨alone true okReply 3000000, (secondDeferred.after plainLibraries true 0).popped 0⟩

theorem delivered_oneTaskStores : Delivered 0 3 0 oneTaskStores :=
  ⟨⟨pendingTask 0 0 0 0 3, rfl, rfl, rfl, rfl, rfl⟩, rfl⟩

/-- The attempt that fails, the one that is put off, and the one that completes the task. -/
theorem orderly_thirdSucceeds :
    Orderly plainLibraries true 0 3 0 [firstFails, secondDeferred, thirdSucceeds] := by
  refine (orderly_iff_answerable ⟨?_, ?_, ?_⟩).2 ?_
  · rintro _ ⟨⟩
    exact delivered_oneTaskStores
  · refine .cons_cons ⟨.inl ⟨2000000, rfl⟩, .of_db rfl, rfl⟩ ?_
    exact .cons_cons ⟨.inl ⟨3000000, rfl⟩, .of_db rfl, rfl⟩ (.singleton _)
  · simp only [List.mem_cons, List.not_mem_nil, or_false]
    rintro s (rfl | rfl | rfl)
    · exact undisturbed_alone _ _ _ _ _ _ _
    · exact undisturbed_alone _ _ _ _ _ _ _
    · exact undisturbed_alone _ _ _ _ _ _ _
  · have hplain : ∀ s : Served, (loadTask s.before.db 0).map TaskView.apiRequest = .ok (plainRequest 0) →
        (s.delivery.replies.reply = failedReply ∨ s.delivery.replies.reply = okReply) →
        s.answerable plainLibraries true 0 := by
      intro s hs hreply v hload
      rw [hload] at hs
      refine ⟨fun _ _ _ => ⟨_, rfl⟩, .inr fun _ _ => ?_⟩
      rcases hreply with h | h <;> rw [h]
      · trivial
      · exact readable_okReply _ _ (congrArg ApiRequest.extractRules (Except.ok.inj hs)) _
    simp only [List.mem_cons, List.not_mem_nil, or_false]
    rintro s (rfl | rfl | rfl)
    · exact hplain _ rfl (.inl rfl)
    · exact hplain _ rfl (.inr rfl)
    · exact hplain _ rfl (.inr rfl)

/-- The library with the limit the interpreter sets on the digits of an integer. -/
def digitLimited : Libraries :=
  { plainLibraries with
    jsonLoads := fun text =>
      if intMaxStrDigits < text.length ∧ text.all (fun c => c.scalar?.any Char.isDigit) then
        .error ⟨⟨.value, "Exceeds the limit (4300 digits) for integer string conversion: value has " ++
          toString text.length ++
          " digits; use sys.set_int_max_str_digits() to increase the limit"⟩, rfl⟩
      else plainLibraries.jsonLoads text }

def nines (n : ℕ) : PyStr := List.replicate n (.scalar '9')

theorem tryParseJson_nines {n : ℕ} (h : intMaxStrDigits < n) :
    ∀ body, tryParseJson digitLimited (some (nines n)) ≠ .ok body := by
  intro body hbody
  have hne : nines n ≠ [] := by
    intro he
    have hlen := congrArg List.length he
    simp [nines] at hlen
    omega
  have hlong : intMaxStrDigits < (nines n).length ∧ (nines n).all fun c => c.scalar?.any Char.isDigit := by
    simp [nines, h, PyChar.scalar?]
  simp only [tryParseJson, digitLimited, hne, if_false, if_pos hlong] at hbody
  cases hbody

/-- A response whose body is an integer of 4301 digits. -/
def hugeInteger : HttpReply := .response 200 .empty (.ok (nines 4301)) 5

/-- The request was sent and answered, and the attempt leaves no result. -/
theorem not_orderly_hugeInteger :
    Serial digitLimited false 0 3 [⟨alone true hugeInteger 0, oneTaskStores⟩] ∧
      ¬ Orderly digitLimited false 0 3 0 [⟨alone true hugeInteger 0, oneTaskStores⟩] := by
  refine ⟨⟨?_, .singleton _, ?_⟩, fun h => ?_⟩
  · rintro _ ⟨⟩
    exact delivered_oneTaskStores
  · simp only [List.mem_singleton, forall_eq]
    exact undisturbed_alone _ _ _ _ _ _ _
  · have ha := answerable_of_orderly h ⟨alone true hugeInteger 0, oneTaskStores⟩
      (List.mem_singleton_self _) ⟨pendingTask 0 0 0 0 3, plainRequest 0, startedRun 0 1⟩ rfl
    obtain ⟨_, ⟨⟩, body, hbody, -⟩ := (ha.reply.resolve_left fun h => by cases h.1) _ rfl
    exact tryParseJson_nines (by decide) body hbody

end ApiTesting
