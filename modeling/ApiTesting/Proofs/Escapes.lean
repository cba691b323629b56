import ApiTesting.Proofs.RetryMachine
import ApiTesting.Spec.Schemas

/-! Which exceptions get past the handlers of the executor and of the analysis of a
response. A handler names the classes it catches, so each comes down to what the
library calls behind it raise. -/

namespace ApiTesting

open Keyed Fallible

/-! The executor. -/

/-- A response whose text decodes, or an exception of the hierarchy that is caught. -/
def HttpReply.Handled : HttpReply → Prop
  | .response _ _ text _ => ∃ body, text = .ok body
  | .timeout _ => True
  | .httpError _ _ => True
  | .raised _ => False

namespace Executor

variable (self : Executor) (chain env : Dict String String) (r : ApiRequest)

/-- The request was sent, and the target answered it. -/
def Obtains : Prop :=
  ∃ request statusCode headers text latencyMs, resolveRequest chain env r = .ok request ∧
    self.httpClient request = .response statusCode headers text latencyMs

/-- What the executor promises: a result, with an error message just when no
response was obtained. -/
def Reports : Prop :=
  ∃ result, self.execute chain env r = .ok result ∧
    (result.errorMessage.isSome ↔ ¬ self.Obtains chain env r)

variable {self chain env r}

/-- The attempt of a task makes of the client's reply what the executor makes of it. -/
theorem execute_eq {reply : HttpReply}
    (h : ∀ request, resolveRequest chain env r = .ok request → self.httpClient request = reply) :
    self.execute chain env r = ApiTesting.execute r.timeoutMs (resolveRequest chain env r) reply := by
  unfold execute
  rcases hr : resolveRequest chain env r with e | request
  · rfl
  · rw [← h request hr]

theorem reports_of_unresolved {e : Exn} (h : resolveRequest chain env r = .error e) :
    self.Reports chain env r := by
  have hcls := resolveRequest_raises chain env r e h
  refine ⟨⟨none, 0, none, none, some e.message⟩, ?_, iff_of_true rfl ?_⟩
  · simp only [execute, h, hcls, if_true]
  · rintro ⟨request, _, _, _, _, hok, -⟩
    rw [h] at hok
    cases hok

theorem obtains_iff {request : ResolvedRequest} (h : resolveRequest chain env r = .ok request) :
    self.Obtains chain env r ↔ ∃ statusCode headers text latencyMs,
      self.httpClient request = .response statusCode headers text latencyMs := by
  constructor
  · rintro ⟨request', statusCode, headers, text, latencyMs, hok, hreply⟩
    rw [h] at hok
    cases hok
    exact ⟨statusCode, headers, text, latencyMs, hreply⟩
  · rintro ⟨statusCode, headers, text, latencyMs, hreply⟩
    exact ⟨request, statusCode, headers, text, latencyMs, h, hreply⟩

/-- A request that is sent is reported just when its reply is handled. -/
theorem reports_iff_of_resolved {request : ResolvedRequest} (h : resolveRequest chain env r = .ok request) :
    self.Reports chain env r ↔ (self.httpClient request).Handled := by
  have hx : self.execute chain env r =
      ApiTesting.execute r.timeoutMs (.ok request) (self.httpClient request) := by
    rw [← h]
    refine execute_eq fun request' h' => ?_
    rw [h] at h'
    cases h'
    rfl
  unfold Reports
  rw [obtains_iff h, hx]
  cases hreply : self.httpClient request with
  | response statusCode headers text latencyMs =>
    cases text <;> simp [ApiTesting.execute, HttpReply.Handled]
  | timeout latencyMs => simp [ApiTesting.execute, HttpReply.Handled]
  | httpError message latencyMs => simp [ApiTesting.execute, HttpReply.Handled]
  | raised e => simp [ApiTesting.execute, HttpReply.Handled]

/-- The executor reports on a request just when nothing the client raises on it is
outside the hierarchy the two handlers cover, and the text of its response decodes. -/
theorem reports_iff (self : Executor) (chain env : Dict String String) (r : ApiRequest) :
    self.Reports chain env r ↔
      ∀ request, resolveRequest chain env r = .ok request → (self.httpClient request).Handled := by
  rcases hr : resolveRequest chain env r with e | request
  · refine iff_of_true (reports_of_unresolved hr) ?_
    rintro request ⟨⟩
  · rw [reports_iff_of_resolved hr]
    simp only [Except.ok.injEq, forall_eq']

end Executor

/-- A request definition whose URL has a port that is no number. -/
def badPort : ApiRequestCreate where
  name := "ping"
  method := .get
  url := "http://api.test:abc/ping"
  headers := .empty
  queryParams := .empty
  body := none
  orderIndex := none
  timeoutMs := 30000
  extractRules := []

/-- A client that answers every request but those it cannot parse the URL of. -/
def strictClient : Executor where
  httpClient := fun request =>
    if request.url = "http://api.test:abc/ping" then
      .raised ⟨⟨.other "InvalidURL", "Invalid port: 'abc'"⟩, rfl⟩
    else okReply

/-- A target that answers with a charset the codecs have, but not one of text. -/
def hexClient : Executor where
  httpClient := fun _ => .response 200 (Dict.put .empty "content-type" "text/plain; charset=hex")
    (.error ⟨⟨.other "AssertionError", ""⟩, rfl⟩) 5

/-- The API takes the definition, and the executor raises on it; and it raises on a
response whose text does not decode. -/
theorem not_reports_badPort :
    badPort.validate = some badPort ∧
      ¬ strictClient.Reports .empty .empty (badPort.toRow 0 0 0) ∧
      ¬ hexClient.Reports .empty .empty (plainRequest 0) := by
  refine ⟨rfl, ?_, ?_⟩
  · rintro ⟨result, h, -⟩
    have hraise : strictClient.execute .empty .empty (badPort.toRow 0 0 0) =
        .error ⟨.other "InvalidURL", "Invalid port: 'abc'"⟩ := rfl
    rw [hraise] at h
    cases h
  · rintro ⟨result, h, -⟩
    have hraise : ∃ e, hexClient.execute .empty .empty (plainRequest 0) = .error e := ⟨_, rfl⟩
    obtain ⟨e, he⟩ := hraise
    rw [he] at h
    cases h

/-! The analysis of a response. -/

/-- The executor's result for a response. -/
def responseResult (statusCode : ℤ) (headers : Dict String String) (text : PyStr) (latencyMs : ℕ) :
    ExecutionResult := ⟨some statusCode, latencyMs, some headers, some text, none⟩

section
variable (lib : Libraries)

/-- Every assertion has its outcome, in the order of the assertions. -/
def AnswersEach (assertions : List Assertion) (result : ExecutionResult) : Prop :=
  ∃ outcomes, evaluateAssertions lib assertions result = .ok outcomes ∧
    outcomes.map AssertionOutcome.assertionId = assertions.map Assertion.id

/-- The extractor returns a dictionary or raises an `ExtractionError`. -/
def ExtractsOrRefuses (rules : List ExtractRule) (result : ExecutionResult)
    (chain : Dict String String) : Prop :=
  (∃ variables_, extractVariables lib rules result chain = .ok variables_) ∨
    ∃ e, extractVariables lib rules result chain = .error e ∧ e.cls = .extraction

/-- The attempt has one of its three outcomes, which `process_task` returns where
Redis answers. -/
def Concluded (assertions : List Assertion) (v : TaskView) (chain : Dict String String)
    (result : ExecutionResult) (w : WorkerId) (now : Timestamp) : Prop :=
  ∃ write o, judgeResult lib w v chain now assertions result = .ok (write, o) ∧
    (o.newStatus = .completed ∨ o.newStatus = .retrying ∨ o.newStatus = .failed) ∧
    ∀ reply st, execute v.apiRequest.timeoutMs (v.resolve chain) reply = .ok result →
      st.db.assertionsOf v.apiRequest.id = assertions →
      (settleTask lib w v chain reply now .ok .ok st).1 = .ok o

/-- What the analysis promises of a response, down to the outcome of every attempt
that got it. -/
structure Analysed (assertions : List Assertion) (rules : List ExtractRule)
    (chain : Dict String String) (result : ExecutionResult) : Prop where
  answers : AnswersEach lib assertions result
  extracts : ExtractsOrRefuses lib rules result chain
  concludes : ∀ (w : WorkerId) (v : TaskView) (now : Timestamp), v.apiRequest.extractRules = rules →
    Concluded lib assertions v chain result w now

/-- What a body is read as: nothing where it is empty or not JSON. -/
inductive ReadAs (text : PyStr) : Json → Prop
  | empty : text = [] → ReadAs text .null
  | parsed {body : Json} : text ≠ [] → lib.jsonLoads text = .ok body → ReadAs text body
  | malformed {e : LibraryExn} : text ≠ [] → lib.jsonLoads text = .error e →
      e.val.cls = .jsonDecode ∨ e.val.cls = .type → ReadAs text .null

/-- Along the rules that are reached, with what has been saved and the variables known by
then: no path is malformed unless there is no document, a token is decoded or refused by
the decoder's own error, and the value has a text. If no rule refuses, `kept` is asked of
all that was saved. -/
def RulesHandled (body : Json) (kept : Dict String PyStr → Prop) :
    Dict String PyStr → Dict String PyStr → List ExtractRule → Prop
  | saved, _, [] => kept saved
  | saved, vars, .jsonPath path saveAs :: rules =>
    body = .null ∨ ∃ found, lib.jsonPathFind path body = .ok found ∧ ∀ value, found.head? = some value →
      ∃ text, value.pyStr lib = .ok text ∧
        RulesHandled body kept (saved.put saveAs text) (vars.put saveAs text) rules
  | saved, vars, .jwtClaim sourceVar claim saveAs :: rules =>
    ∀ token, vars.lookup sourceVar = some token →
      (∃ e, lib.jwtDecode token = .error e ∧ e.val.cls = .pyJwt) ∨
        ∃ claims, lib.jwtDecode token = .ok claims ∧ ∀ value, claims.lookup claim = some value →
          ∃ text, value.pyStr lib = .ok text ∧
            RulesHandled body kept (saved.put saveAs text) (vars.put saveAs text) rules
  | _, _, .other _ :: _ => True

/-- Where all assertions pass, all that was saved can be encoded. -/
def MayBeMerged (assertions : List Assertion) (result : ExecutionResult) (body : Json)
    (saved : Dict String PyStr) : Prop :=
  (∀ a ∈ assertions, (evaluateOne lib a result body).passed) → Encodable saved

end

section
variable {lib : Libraries}

theorem tryParseJson_eq_ok_iff {text : PyStr} {body : Json} :
    tryParseJson lib (some text) = .ok body ↔ ReadAs lib text body := by
  constructor
  · intro h
    unfold tryParseJson at h
    dsimp only at h
    split at h
    · rename_i hempty
      cases h
      exact .empty hempty
    · rename_i hne
      split at h
      · rename_i v hloads
        cases h
        exact .parsed hne hloads
      · rename_i e hloads
        split at h
        · rename_i hcls
          cases h
          exact .malformed hne hloads hcls
        · cases h
  · intro h
    cases h with
    | empty hempty => simp [tryParseJson, hempty]
    | parsed hne hloads => simp [tryParseJson, hne, hloads]
    | malformed hne hloads hcls => simp [tryParseJson, hne, hloads, hcls]

theorem answersEach_iff {assertions : List Assertion} {result : ExecutionResult} :
    AnswersEach lib assertions result ↔ ∃ body, tryParseJson lib result.responseBody = .ok body := by
  constructor
  · rintro ⟨outcomes, h, -⟩
    unfold evaluateAssertions at h
    rcases hp : tryParseJson lib result.responseBody with e | body
    · rw [hp] at h
      cases h
    · exact ⟨body, rfl⟩
  · rintro ⟨body, hp⟩
    refine ⟨assertions.map fun a => evaluateOne lib a result body, ?_, ?_⟩
    · rw [evaluateAssertions, hp]
      rfl
    · rw [List.map_map]
      rfl

theorem not_extraction (e : LibraryExn) : e.val.cls ≠ .extraction := by
  intro h
  have hlib := e.property
  rw [h] at hlib
  cases hlib

/-! One rule, with what comes after it as `next`. -/

variable {β : Type} {R : β → Prop} {next : PyStr → Except Exn β} {body : Json} {vars : Dict String PyStr}

theorem ends_pyStr_iff {value : Json} :
    Ends (·.cls = .extraction) R ((value.pyStr lib).mapError Subtype.val >>= next) ↔
      ∃ text, value.pyStr lib = .ok text ∧ Ends (·.cls = .extraction) R (next text) := by
  rcases value.pyStr lib with e | text
  · simp [not_extraction e, Except.mapError, bind, Except.bind]
  · simp [Except.mapError, bind, Except.bind]

theorem ends_extractJsonPath_iff {path : String} :
    Ends (·.cls = .extraction) R (extractJsonPath lib body path >>= next) ↔
      body = .null ∨ ∃ found, lib.jsonPathFind path body = .ok found ∧
        ∀ value, found.head? = some value →
          ∃ text, value.pyStr lib = .ok text ∧ Ends (·.cls = .extraction) R (next text) := by
  unfold extractJsonPath
  split
  · simp [extractionError, bind, Except.bind]
  · rename_i hnull
    have hbody : body ≠ .null := fun h => hnull h
    rcases lib.jsonPathFind path body with e | found
    · simp [hbody, not_extraction e, Except.mapError, bind, Except.bind]
    · cases found with
      | nil => simp [extractionError, Except.mapError, bind, Except.bind]
      | cons value rest =>
        simp only [hbody, false_or, Except.ok.injEq, exists_eq_left', List.head?_cons, Option.some.injEq,
          forall_eq']
        exact ends_pyStr_iff

theorem ends_extractJwtClaim_iff {sourceVar claim : String} :
    Ends (·.cls = .extraction) R (extractJwtClaim lib vars sourceVar claim >>= next) ↔
      ∀ token, vars.lookup sourceVar = some token →
        (∃ e, lib.jwtDecode token = .error e ∧ e.val.cls = .pyJwt) ∨
          ∃ claims, lib.jwtDecode token = .ok claims ∧ ∀ value, claims.lookup claim = some value →
            ∃ text, value.pyStr lib = .ok text ∧ Ends (·.cls = .extraction) R (next text) := by
  unfold extractJwtClaim
  rcases vars.lookup sourceVar with _ | token
  · simp [extractionError, bind, Except.bind]
  · simp only [Option.some.injEq, forall_eq']
    rcases lib.jwtDecode token with e | claims
    · by_cases hcls : e.val.cls = .pyJwt
      · simp [hcls, extractionError, bind, Except.bind]
      · simp [hcls, not_extraction e, bind, Except.bind]
    · simp only [reduceCtorEq, false_and, exists_false, false_or, Except.ok.injEq, exists_eq_left']
      rcases claims.lookup claim with _ | value
      · simp [extractionError, bind, Except.bind]
      · simp only [Option.some.injEq, forall_eq']
        exact ends_pyStr_iff

/-- The rules of a list from any point on: `acc` is what has been saved so far, and what is
known by then. -/
theorem ends_rules_iff {kept : Dict String PyStr → Prop} (rules : List ExtractRule)
    (acc : Dict String PyStr × Dict String PyStr) :
    Ends (·.cls = .extraction) (fun acc => kept acc.1) (rules.foldlM (extractRule lib body) acc) ↔
      RulesHandled lib body kept acc.1 acc.2 rules := by
  induction rules generalizing acc with
  | nil => exact Iff.rfl
  | cons rule rules ih =>
    rw [List.foldlM_cons]
    cases rule with
    | jsonPath path saveAs =>
      have hround : extractRule lib body acc (.jsonPath path saveAs) = (do
          let value ← extractJsonPath lib body path
          return (acc.1.put saveAs value, acc.2.put saveAs value)) := rfl
      rw [hround, bind_assoc, ends_extractJsonPath_iff, RulesHandled]
      simp only [pure_bind, ih]
    | jwtClaim sourceVar claim saveAs =>
      have hround : extractRule lib body acc (.jwtClaim sourceVar claim saveAs) = (do
          let value ← extractJwtClaim lib acc.2 sourceVar claim
          return (acc.1.put saveAs value, acc.2.put saveAs value)) := rfl
      rw [hround, bind_assoc, ends_extractJwtClaim_iff, RulesHandled]
      simp only [pure_bind, ih]
    | other type => exact iff_of_true rfl trivial

/-- How the extractor ends is how its rules are handled, starting with nothing saved. -/
theorem ends_extractVariables_iff {kept : Dict String PyStr → Prop} {rules : List ExtractRule}
    {result : ExecutionResult} {chain : Dict String String}
    (hbody : tryParseJson lib result.responseBody = .ok body) :
    Ends (·.cls = .extraction) kept (extractVariables lib rules result chain) ↔
      RulesHandled lib body kept .empty (chain.mapValues PyStr.ofString) rules := by
  have hx : extractVariables lib rules result chain =
      (rules.foldlM (extractRule lib body) (.empty, chain.mapValues PyStr.ofString) >>= fun acc =>
        .ok acc.1) := by
    rw [extractVariables, hbody]
    rfl
  rw [hx, ends_bind_iff]
  exact ends_rules_iff rules _

/-- An attempt whose response can be analysed ends in one of its three verdicts. -/
theorem concluded_of_analysable {assertions : List Assertion} {v : TaskView} {chain : Dict String String}
    {result : ExecutionResult} (hno : result.errorMessage = none)
    (h : result.Analysable lib assertions v.apiRequest.extractRules chain) (w : WorkerId) (now : Timestamp) :
    Concluded lib assertions v chain result w now := by
  obtain ⟨⟨write, o⟩, hjudged⟩ := (judgeResult_isOk_iff hno w now).2 h
  refine ⟨write, o, hjudged, ?_, fun reply st hexec hlisted => ?_⟩
  · cases (judgeResult_concludes hjudged).verdict with
    | completed _ hstatus => exact .inl hstatus
    | retrying _ hstatus => exact .inr (.inl hstatus)
    | failed _ hstatus => exact .inr (.inr hstatus)
  · have hj : judgeReply lib w v chain reply now st.db = .ok (write, o) := by
      rw [judgeReply, hexec, hlisted]
      exact hjudged
    rw [settleTask_of_ok hj]
    cases write <;> rfl

/-- A request of these rules, to be sent as it is. -/
def ruled (rules : List ExtractRule) : TaskView :=
  ⟨pendingTask 0 0 0 0 3, { plainRequest 0 with extractRules := rules }, startedRun 0 1⟩

/-- Both modules return from a response, or refuse it, and the attempt has its outcome,
just when the body parses or is rejected as JSON, no rule that is reached raises past its
handler, and what was saved can be merged. -/
theorem analysed_iff (lib : Libraries) (assertions : List Assertion) (rules : List ExtractRule)
    (chain : Dict String String) (statusCode : ℤ) (headers : Dict String String) (text : PyStr)
    (latencyMs : ℕ) :
    Analysed lib assertions rules chain (responseResult statusCode headers text latencyMs) ↔
      ∃ body, ReadAs lib text body ∧ RulesHandled lib body
        (MayBeMerged lib assertions (responseResult statusCode headers text latencyMs) body) .empty
        (chain.mapValues PyStr.ofString) rules := by
  have hanalysable : (responseResult statusCode headers text latencyMs).Analysable lib assertions rules chain ↔
      ∃ body, ReadAs lib text body ∧ RulesHandled lib body
        (MayBeMerged lib assertions (responseResult statusCode headers text latencyMs) body) .empty
        (chain.mapValues PyStr.ofString) rules := by
    refine exists_congr fun body => ?_
    rw [← tryParseJson_eq_ok_iff]
    exact and_congr_right fun hbody => ends_extractVariables_iff hbody
  rw [← hanalysable]
  constructor
  · intro h
    obtain ⟨write, o, hjudged, -⟩ := h.concludes 0 (ruled rules) 0 rfl
    exact (judgeResult_isOk_iff rfl 0 0).1 ⟨_, hjudged⟩
  · intro h
    obtain ⟨body, hbody, hends⟩ := id h
    refine ⟨answersEach_iff.2 ⟨body, hbody⟩, ?_, ?_⟩
    · rcases ends_iff.1 hends with ⟨variables_, hok, -⟩ | hrefused
      · exact .inl ⟨variables_, hok⟩
      · exact .inr hrefused
    · rintro w v now rfl
      exact concluded_of_analysable rfl h w now

/-- The parser of paths as it is on a path that breaks off. -/
def pathParsing : Libraries :=
  { plainLibraries with
    jsonLoads := fun text => if text = "\x7b\x7d" then .ok (.obj []) else plainLibraries.jsonLoads text
    jsonPathFind := fun path document =>
      if path = "$[" then .error ⟨⟨.jsonPath, "Parse error near the end of string!"⟩, rfl⟩
      else plainLibraries.jsonPathFind path document }

/-- The API takes a rule whose path breaks off, and the extractor raises the parser's
error on it; and an integer of 4301 digits is more than either module can read. -/
theorem not_analysed_brokenPath :
    (ExtractRule.jsonPath "$[" "x").accepted ∧
      ¬ Analysed pathParsing [] [.jsonPath "$[" "x"] .empty
        (responseResult 200 .empty "\x7b\x7d" 5) ∧
      ¬ Analysed digitLimited [] [] .empty (responseResult 200 .empty (nines 4301) 5) := by
  refine ⟨rfl, fun h => ?_, fun h => ?_⟩
  · have hraise : extractVariables pathParsing [.jsonPath "$[" "x"]
        (responseResult 200 .empty "\x7b\x7d" 5) .empty =
        .error ⟨.jsonPath, "Parse error near the end of string!"⟩ := rfl
    rcases h.extracts with ⟨variables_, hok⟩ | ⟨e, herror, hcls⟩
    · rw [hraise] at hok
      cases hok
    · rw [hraise] at herror
      cases herror
      cases hcls
  · obtain ⟨body, hbody⟩ := answersEach_iff.1 h.answers
    exact tryParseJson_nines (by decide) body hbody

end

end ApiTesting
