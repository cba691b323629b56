import ApiTesting.Spec.TaskProcessor
import ApiTesting.Lib.Raises

/-! One lemma for each function of the task processor: which rows it has read,
which exceptions it ends with, what an outcome records, and what it does to the
stores. -/

namespace ApiTesting

open Keyed Fallible

theorem loadTask_eq_ok_iff {db : Database} {t : UUID} {v : TaskView} :
    loadTask db t = .ok v ↔ db.testTasks.get? t = some v.testTask ∧
      db.apiRequests.get? v.testTask.apiRequestId = some v.apiRequest ∧
      db.testRuns.get? v.testTask.testRunId = some v.testRun := by
  unfold loadTask
  constructor
  · intro h
    split at h
    · cases h
    · rename_i ht
      split at h
      · cases h
      · rename_i hq
        split at h <;> cases h
        exact ⟨ht, hq, ‹_›⟩
  · rintro ⟨ht, hq, hr⟩
    simp only [ht, hq, hr]

/-- No row is missing where the foreign keys of the task hold. -/
theorem loadTask_isOk {db : Database} {t : UUID} {row : TestTask}
    (ht : db.testTasks.get? t = some row) (hq : (db.apiRequests.get? row.apiRequestId).isSome)
    (hr : (db.testRuns.get? row.testRunId).isSome) : ∃ v, loadTask db t = .ok v := by
  obtain ⟨q, hq⟩ := Option.isSome_iff_exists.1 hq
  obtain ⟨r, hr⟩ := Option.isSome_iff_exists.1 hr
  exact ⟨⟨row, q, r⟩, loadTask_eq_ok_iff.2 ⟨ht, hq, hr⟩⟩

/-! Which exceptions leave `process_task`. -/

/-- The two classes `_process_entry` acknowledges. -/
def Exn.handled (e : Exn) : Prop := e.cls = .taskProcessing ∨ e.cls = .rateLimited

theorem not_handled_of_library {e : Exn} (h : e.cls.ofProgram = false) : ¬ e.handled := by
  intro he
  rcases he with he | he <;> rw [he] at h <;> cases h

/-! Resolving raises the error of a name that some placeholder has. -/

section
variable (chain env : Dict String String) {P : Exn → Prop}
  (hP : ∀ text name length, matchPlaceholder text = some (name, length) →
    P (undefinedVariableError (String.ofList name)))

include hP

theorem raises_substitute (skip : ℕ) (text : List Char) : Raises P (substitute chain env skip text) := by
  induction text generalizing skip with
  | nil =>
    cases skip <;> exact raises_ok _
  | cons c cs ih =>
    cases skip with
    | succ skip => exact ih skip
    | zero =>
      unfold substitute
      split
      · rename_i name length hmatch
        refine Raises.bind ?_ fun _ _ => (ih _).bind fun _ _ => raises_ok _
        unfold replaceName
        split
        · exact raises_ok _
        · split
          · exact raises_ok _
          · exact raises_error (hP _ name length hmatch)
      · exact (ih 0).bind fun _ _ => raises_ok _

theorem raises_resolveTemplate (template : String) : Raises P (resolveTemplate chain env template) :=
  (raises_substitute chain env hP 0 _).bind fun _ _ => raises_ok _

theorem raises_resolveMapping (mapping : Dict String String) :
    Raises P (resolveMapping chain env mapping) := by
  unfold resolveMapping
  refine raises_foldlM (fun p _ resolved => ?_) _
  exact (raises_resolveTemplate chain env hP p.2).bind fun _ _ => raises_ok _

theorem raises_resolveBody (body : Option String) : Raises P (resolveBody chain env body) := by
  unfold resolveBody
  split
  · exact raises_ok _
  · split
    · exact raises_ok _
    · exact (raises_resolveTemplate chain env hP _).map

theorem raises_resolveRequest (r : ApiRequest) : Raises P (resolveRequest chain env r) := by
  refine (raises_resolveTemplate chain env hP r.url).bind fun url _ => ?_
  refine (raises_resolveMapping chain env hP r.headers).bind fun headers _ => ?_
  refine (raises_resolveMapping chain env hP r.queryParams).bind fun params _ => ?_
  exact (raises_resolveBody chain env hP r.body).bind fun content _ => raises_ok _

end

section
variable (chain env : Dict String String)

theorem resolveTemplate_raises (template : String) :
    Raises (·.cls = .undefinedVariable) (resolveTemplate chain env template) :=
  raises_resolveTemplate chain env (fun _ _ _ _ => rfl) template

theorem resolveRequest_raises (r : ApiRequest) :
    Raises (·.cls = .undefinedVariable) (resolveRequest chain env r) :=
  raises_resolveRequest chain env (fun _ _ _ _ => rfl) r

end

section
variable (lib : Libraries)

theorem tryParseJson_raises (body : Option PyStr) :
    Raises (·.cls.ofProgram = false) (tryParseJson lib body) := by
  unfold tryParseJson
  split
  · exact raises_ok _
  · split
    · exact raises_ok _
    · split
      · exact raises_ok _
      · rename_i e _
        split
        · exact raises_ok _
        · exact raises_error e.property

theorem execute_raises (v : TaskView) (chain : Dict String String) (reply : HttpReply) :
    Raises (·.cls.ofProgram = false)
      (execute v.apiRequest.timeoutMs (v.resolve chain) reply) := by
  rcases hr : v.resolve chain with e | request
  · have hcls := resolveRequest_raises _ _ _ e hr
    simp only [execute, hcls, if_true]
    exact raises_ok _
  · cases reply with
    | raised e => exact raises_error e.property
    | response statusCode headers text latencyMs =>
      cases text with
      | error e => exact raises_error e.property
      | ok text => exact raises_ok _
    | _ => exact raises_ok _

theorem extractJsonPath_raises (parsedBody : Json) (path : String) :
    Raises (fun e => e.cls = .extraction ∨ e.cls.ofProgram = false)
      (extractJsonPath lib parsedBody path) := by
  unfold extractJsonPath
  split
  · exact raises_error (.inl rfl)
  · refine Raises.bind (raises_mapError fun e => .inr e.property) fun found _ => ?_
    cases found with
    | nil => exact raises_error (.inl rfl)
    | cons value rest => exact raises_mapError fun e => .inr e.property

theorem extractJwtClaim_raises (available : Dict String PyStr) (sourceVar claim : String) :
    Raises (fun e => e.cls = .extraction ∨ e.cls.ofProgram = false)
      (extractJwtClaim lib available sourceVar claim) := by
  unfold extractJwtClaim
  split
  · exact raises_error (.inl rfl)
  · split
    · rename_i e _
      split
      · exact raises_error (.inl rfl)
      · exact raises_error (.inr e.property)
    · split
      · exact raises_error (.inl rfl)
      · exact raises_mapError fun e => .inr e.property

theorem extractVariables_raises (rules : List ExtractRule) (result : ExecutionResult)
    (chain : Dict String String) :
    Raises (fun e => e.cls = .extraction ∨ e.cls.ofProgram = false)
      (extractVariables lib rules result chain) := by
  refine ((tryParseJson_raises lib _).mono fun e h => .inr h).bind fun parsedBody _ => ?_
  refine Raises.bind (raises_foldlM (fun rule _ acc => ?_) _) fun _ _ => raises_ok _
  cases rule with
  | jsonPath path saveAs =>
    exact (extractJsonPath_raises lib parsedBody path).bind fun _ _ => raises_ok _
  | jwtClaim sourceVar claim saveAs =>
    exact (extractJwtClaim_raises lib acc.2 sourceVar claim).bind fun _ _ => raises_ok _
  | other type => exact raises_error (.inl rfl)

section
variable {assertions : List Assertion} {request : ApiRequest} {chain : Dict String String}
  {result : ExecutionResult}

theorem evaluateResult_of_failed {message : PyStr} (h : result.errorMessage = some message) :
    evaluateResult lib assertions request chain result = .ok ⟨none, .empty,
      [if message = [] then PyStr.ofString "Request failed with no error detail." else message]⟩ := by
  have hfailed : ¬ result.succeeded := by simp [ExecutionResult.succeeded, h]
  rw [evaluateResult, if_pos hfailed, h]
  rfl

theorem evaluateResult_of_answered (h : result.errorMessage = none) :
    evaluateResult lib assertions request chain result =
      evaluateResponse lib assertions request chain result := by
  have hsucceeded : ¬ ¬ result.succeeded := by simp [ExecutionResult.succeeded, h]
  rw [evaluateResult, if_neg hsucceeded]

end

theorem evaluateResult_raises (assertions : List Assertion) (request : ApiRequest)
    (chain : Dict String String) (result : ExecutionResult) :
    Raises (·.cls.ofProgram = false) (evaluateResult lib assertions request chain result) := by
  unfold evaluateResult
  split
  · exact raises_ok _
  · unfold evaluateResponse
    refine Raises.bind ?_ fun outcomes _ => ?_
    · exact (tryParseJson_raises lib _).bind fun _ _ => raises_ok _
    · dsimp only
      split
      · exact raises_ok _
      · rename_i e he
        split
        · exact raises_ok _
        · rename_i hcls
          exact raises_error ((extractVariables_raises lib _ _ _ e he).resolve_left hcls)

theorem assertionReasons_eq_nil_iff {outcomes : List AssertionOutcome} :
    assertionReasons outcomes = [] ↔ ∀ o ∈ outcomes, o.passed := by
  unfold assertionReasons
  dsimp only
  split
  · rename_i h
    exact iff_of_true rfl (List.all_eq_true.1 h)
  · rename_i h
    exact iff_of_false nofun fun hall => h (List.all_eq_true.2 hall)

theorem encoded_raises (ev : Evaluation) : Raises (·.cls.ofProgram = false) ev.encoded := by
  unfold Evaluation.encoded encodeVariables
  split
  · split
    · exact raises_ok _
    · exact raises_error rfl
  · exact raises_ok _

theorem judgeResult_raises (w : WorkerId) (v : TaskView) (chain : Dict String String) (now : Timestamp)
    (assertions : List Assertion) (result : ExecutionResult) :
    Raises (·.cls.ofProgram = false) (judgeResult lib w v chain now assertions result) := by
  refine (evaluateResult_raises lib _ _ _ _).bind fun ev _ => ?_
  exact (encoded_raises ev).bind fun _ _ => raises_ok _

/-- What the verdict raises is left to the loop, which does not acknowledge it. -/
theorem judgeReply_raises (w : WorkerId) (v : TaskView) (chain : Dict String String)
    (reply : HttpReply) (now : Timestamp) (db : Database) :
    Raises (¬ ·.handled) (judgeReply lib w v chain reply now db) := by
  refine ((execute_raises v chain reply).mono fun _ => not_handled_of_library).bind fun result _ => ?_
  exact (judgeResult_raises lib _ _ _ _ _ _).mono fun _ => not_handled_of_library

end

/-! What an outcome records. -/

/-- The three verdicts on an attempt, with what goes to Redis and into the row. -/
inductive Verdict (v : TaskView) : RedisWrite → TaskOutcome → Prop
  | completed {write : RedisWrite} {o : TaskOutcome} : (∀ at_, write ≠ .scheduleRetry at_) →
      o.newStatus = .completed → o.retryCount = v.testTask.retryCount → o.nextRetryAt = none →
      Verdict v write o
  | retrying {at_ : Timestamp} {o : TaskOutcome} : v.testTask.retryCount < v.testTask.maxRetries →
      o.newStatus = .retrying → o.retryCount = v.testTask.retryCount + 1 →
      o.nextRetryAt = some at_ → Verdict v (.scheduleRetry at_) o
  | failed {o : TaskOutcome} : v.testTask.maxRetries ≤ v.testTask.retryCount →
      o.newStatus = .failed → o.retryCount = v.testTask.retryCount + 1 → o.nextRetryAt = none →
      Verdict v .nothing o

structure Concludes (v : TaskView) (write : RedisWrite) (o : TaskOutcome) : Prop where
  testTaskId : o.testTaskId = v.testTask.id
  testRunId : o.testRunId = v.testRun.id
  attemptNumber : o.attemptNumber = v.testTask.retryCount + 1
  verdict : Verdict v write o

theorem decideOutcome_concludes (v : TaskView) (w : WorkerId) (result : ExecutionResult)
    (ev : Evaluation) (extracted : Dict String String) (now : Timestamp) :
    Concludes v (decideOutcome v w result ev extracted now).1
      (decideOutcome v w result ev extracted now).2 := by
  unfold decideOutcome
  dsimp only
  split
  · refine ⟨rfl, rfl, rfl, .completed ?_ rfl rfl rfl⟩
    intro at_ h
    split at h <;> cases h
  · split
    · rename_i h
      exact ⟨rfl, rfl, rfl, .retrying h rfl rfl rfl⟩
    · rename_i h
      exact ⟨rfl, rfl, rfl, .failed (by omega) rfl rfl rfl⟩

theorem judgeResult_eq_ok {lib : Libraries} {w : WorkerId} {v : TaskView} {chain : Dict String String}
    {now : Timestamp} {assertions : List Assertion} {result : ExecutionResult} {p : RedisWrite × TaskOutcome}
    (h : judgeResult lib w v chain now assertions result = .ok p) :
    ∃ ev extracted, evaluateResult lib assertions v.apiRequest chain result = .ok ev ∧
      ev.encoded = .ok extracted ∧ p = decideOutcome v w result ev extracted now := by
  obtain ⟨ev, hev, h⟩ := bind_eq_ok_iff.1 h
  obtain ⟨extracted, hextracted, h⟩ := bind_eq_ok_iff.1 h
  exact ⟨ev, extracted, hev, hextracted, (Except.ok.inj h).symm⟩

theorem judgeResult_concludes {lib : Libraries} {w : WorkerId} {v : TaskView} {chain : Dict String String}
    {now : Timestamp} {assertions : List Assertion} {result : ExecutionResult} {write : RedisWrite}
    {o : TaskOutcome} (h : judgeResult lib w v chain now assertions result = .ok (write, o)) :
    Concludes v write o := by
  obtain ⟨ev, extracted, -, -, hp⟩ := judgeResult_eq_ok h
  have hdecided := decideOutcome_concludes v w result ev extracted now
  rwa [← hp] at hdecided

section
variable {lib : Libraries} {w : WorkerId} {v : TaskView} {chain : Dict String String} {reply : HttpReply}
  {now : Timestamp} {db : Database}

theorem judgeReply_eq_ok {p : RedisWrite × TaskOutcome} (h : judgeReply lib w v chain reply now db = .ok p) :
    ∃ result ev extracted, execute v.apiRequest.timeoutMs (v.resolve chain) reply = .ok result ∧
      evaluateResult lib (db.assertionsOf v.apiRequest.id) v.apiRequest chain result = .ok ev ∧
      ev.encoded = .ok extracted ∧ p = decideOutcome v w result ev extracted now := by
  obtain ⟨result, hresult, h⟩ := bind_eq_ok_iff.1 h
  obtain ⟨ev, extracted, hev, hextracted, hp⟩ := judgeResult_eq_ok h
  exact ⟨result, ev, extracted, hresult, hev, hextracted, hp⟩

theorem judgeReply_concludes {write : RedisWrite} {o : TaskOutcome}
    (h : judgeReply lib w v chain reply now db = .ok (write, o)) : Concludes v write o := by
  obtain ⟨result, -, h⟩ := bind_eq_ok_iff.1 h
  exact judgeResult_concludes h

end

/-! What an attempt does to the stores. -/

/-- How the rate limiter lets an attempt go on, or ends it. -/
inductive Limited (v : TaskView) (st : Stores) : Except Exn Unit × Stores → Prop
  | passed : Limited v st (.ok (), st)
  | deferred {e : Exn} {at_ : Timestamp} : e.cls = .rateLimited →
      Limited v st (.error e,
        { st with retryPending := st.retryPending.scheduleRetry v.testTask.id at_ })
  | raised {e : Exn} {st' : Stores} : ¬ e.handled →
      st' = st ∨ (∃ at_ : Timestamp,
        st' = { st with retryPending := st.retryPending.scheduleRetry v.testTask.id at_ }) →
      Limited v st (.error e, st')

theorem hostForUrl_raises (lib : Libraries) (url : String) :
    Raises (·.cls.ofProgram = false) (hostForUrl lib url) :=
  raises_mapError fun e => e.property

theorem passRateLimit_limited (lib : Libraries) (rateLimiter : Bool) (v : TaskView)
    (chain : Dict String String) (allowed : Bool) (now : Timestamp) (call : Call) (st : Stores) :
    Limited v st (passRateLimit lib rateLimiter v chain allowed now call st) := by
  unfold passRateLimit
  split
  · unfold checkRateLimit
    split
    · rename_i e he
      rw [if_pos (resolveTemplate_raises _ _ _ e he)]
      exact .passed
    · split
      · rename_i e he
        exact .raised (not_handled_of_library (hostForUrl_raises lib _ e he)) (.inl rfl)
      · exact .passed
      · split
        · exact .passed
        · cases call with
          | ok => exact .deferred rfl
          | raisedBefore => exact .raised (not_handled_of_library rfl) (.inl rfl)
          | raisedAfter => exact .raised (not_handled_of_library rfl) (.inr ⟨_, rfl⟩)
  · exact .passed

namespace Stores

variable (st : Stores) (v : TaskView) (write : RedisWrite) (now : Timestamp)
  (call expireCall : Call)

@[simp] theorem scheduleRetry_db (t : UUID) (at_ : Timestamp) :
    (st.scheduleRetry t at_ call).2.db = st.db := by
  unfold scheduleRetry
  cases call <;> rfl

@[simp] theorem scheduleRetry_contexts (t : UUID) (at_ : Timestamp) :
    (st.scheduleRetry t at_ call).2.contexts = st.contexts := by
  unfold scheduleRetry
  cases call <;> rfl

theorem scheduleRetry_retryPending (t : UUID) (at_ : Timestamp) :
    (st.scheduleRetry t at_ call).2.retryPending =
      if call.tookEffect then st.retryPending.scheduleRetry t at_ else st.retryPending := by
  unfold scheduleRetry
  cases call <;> rfl

@[simp] theorem perform_db : (st.perform v write now call expireCall).2.db = st.db := by
  cases write with
  | nothing => rfl
  | merge vars =>
    unfold perform
    cases call <;> cases expireCall <;> rfl
  | scheduleRetry at_ => exact st.scheduleRetry_db call _ _

theorem perform_retryPending :
    (st.perform v write now call expireCall).2.retryPending =
      match write with
      | .scheduleRetry at_ =>
        if call.tookEffect then st.retryPending.scheduleRetry v.testTask.id at_ else st.retryPending
      | _ => st.retryPending := by
  cases write with
  | nothing => rfl
  | merge vars =>
    unfold perform
    cases call <;> cases expireCall <;> rfl
  | scheduleRetry at_ => exact st.scheduleRetry_retryPending call _ _

end Stores

theorem limited_db {v : TaskView} {st : Stores} {r : Except Exn Unit × Stores}
    (h : Limited v st r) : r.2.db = st.db := by
  cases h with
  | passed => rfl
  | deferred => rfl
  | raised _ hst =>
    rcases hst with rfl | ⟨at_, rfl⟩
    · rfl
    · rfl

/-! Which exceptions `process_task` ends with, and what it did before them. -/

theorem perform_raises (st : Stores) (v : TaskView) (write : RedisWrite) (now : Timestamp)
    (call expireCall : Call) : Raises (· = callError) (st.perform v write now call expireCall).1 := by
  have hcall : ∀ c : Call, Raises (· = callError)
      (if c.returned then .ok () else .error callError : Except Exn Unit) := by
    intro c
    cases c with
    | ok => exact raises_ok _
    | _ => exact raises_error rfl
  cases write with
  | nothing => exact raises_ok _
  | scheduleRetry at_ => exact hcall call
  | merge vars =>
    cases call with
    | ok => exact hcall expireCall
    | _ => exact raises_error rfl

theorem settleTask_raises (lib : Libraries) (w : WorkerId) (v : TaskView) (chain : Dict String String)
    (reply : HttpReply) (now : Timestamp) (call expireCall : Call) (st : Stores) :
    Raises (¬ ·.handled) (settleTask lib w v chain reply now call expireCall st).1 := by
  unfold settleTask
  split
  · rename_i e hj
    exact raises_error (judgeReply_raises lib w v chain reply now st.db e hj)
  · rename_i write o _
    have hp := perform_raises st v write now call expireCall
    split
    · exact raises_ok _
    · rename_i e _ he
      obtain rfl := hp e (by rw [he])
      exact raises_error (not_handled_of_library rfl)

/-- An exception the loop acknowledges: a row was missing, or the task was put on
the retry set before the attempt was deferred. -/
theorem processTask_handled {lib : Libraries} {rateLimiter : Bool} {t : UUID} {w : WorkerId} {r : Replies}
    {others : Others} {st : Stores} {e : Exn}
    (h : (processTask lib rateLimiter t w r others st).1 = .error e) (hh : e.handled) :
    loadTask st.db t = .error e ∨ e.cls = .rateLimited ∧ ∃ (st' : Stores) (at_ : Timestamp),
      (processTask lib rateLimiter t w r others st).2 =
        { st' with retryPending := st'.retryPending.scheduleRetry t at_ } := by
  unfold processTask at h ⊢
  split at h
  · rename_i e' hload
    cases h
    exact .inl hload
  · rename_i v hload
    have hid : v.testTask.id = t := (Table.get?_eq_some_iff.1 (loadTask_eq_ok_iff.1 hload).1).2
    refine .inr ?_
    dsimp only at h
    split at h
    · rename_i e' st₂ hpass
      cases h
      have hlim := passRateLimit_limited lib rateLimiter v
        (v.chainContext r.contextReadAt (others.beforeContext st).contexts) r.allowed r.limitedAt
        r.limiterCall (others.beforeLimit (others.beforeContext st))
      rw [hpass] at hlim
      cases hlim with
      | @deferred _ at_ hcls =>
        refine ⟨hcls, others.beforeLimit (others.beforeContext st), at_, ?_⟩
        simp only [hpass, hid]
      | raised hnot => exact absurd hh hnot
    · exact absurd hh (settleTask_raises _ _ _ _ _ _ _ _ _ e h)

end ApiTesting
