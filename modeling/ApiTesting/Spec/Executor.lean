import ApiTesting.Spec.Rows
import ApiTesting.Spec.TemplateResolver

/-! `worker.executor`: a request template resolved against its context, and the
result of sending it. What the HTTP client does is an input (`HttpReply`). -/

namespace ApiTesting

open Keyed

structure ExecutionResult where
  statusCode : Option ℤ
  latencyMs : ℕ
  responseHeaders : Option (Dict String String)
  responseBody : Option PyStr
  errorMessage : Option PyStr

def ExecutionResult.succeeded (r : ExecutionResult) : Bool := r.errorMessage.isNone

/-- The arguments of `http_client.request`. -/
structure ResolvedRequest where
  method : HttpMethod
  url : String
  headers : Dict String String
  params : Dict String String
  content : Option String
  timeoutMs : ℕ

/-- How one call of the HTTP client ends, with the time it took. `text` decodes the body
of a response by the charset the response names, and raises where that is none for text. -/
inductive HttpReply
  | response (statusCode : ℤ) (headers : Dict String String) (text : Except LibraryExn PyStr)
      (latencyMs : ℕ)
  | timeout (latencyMs : ℕ)
  | httpError (message : PyStr) (latencyMs : ℕ)
  | raised (e : LibraryExn)

section
variable (chainContext environmentVariables : Dict String String)

/-- `resolve_template(body, ...) if body else None`. -/
def resolveBody (body : Option String) : Except Exn (Option String) :=
  match body with
  | none => .ok none
  | some text =>
    if text = "" then .ok none
    else (resolveTemplate chainContext environmentVariables text).map some

/-- The templates in the order the executor resolves them. -/
def resolveRequest (r : ApiRequest) : Except Exn ResolvedRequest := do
  let url ← resolveTemplate chainContext environmentVariables r.url
  let headers ← resolveMapping chainContext environmentVariables r.headers
  let params ← resolveMapping chainContext environmentVariables r.queryParams
  let content ← resolveBody chainContext environmentVariables r.body
  return { method := r.method, url, headers, params, content, timeoutMs := r.timeoutMs }

end

/-- `Executor.execute` after the resolution `resolved`; `reply` is only looked at
where a request was sent. The text of a response is read after the handlers. -/
def execute (timeoutMs : ℕ) (resolved : Except Exn ResolvedRequest) (reply : HttpReply) :
    Except Exn ExecutionResult :=
  match resolved with
  | .error e =>
    if e.cls = .undefinedVariable then .ok ⟨none, 0, none, none, some e.message⟩ else .error e
  | .ok _ =>
    match reply with
    | .response statusCode headers text latencyMs =>
      match text with
      | .ok text => .ok ⟨some statusCode, latencyMs, some headers, some text, none⟩
      | .error e => .error e.val
    | .timeout latencyMs =>
      .ok ⟨none, latencyMs, none, none,
        some ("Request timed out after " ++ toString timeoutMs ++ "ms." : String)⟩
    | .httpError message latencyMs =>
      .ok ⟨none, latencyMs, none, none, some ("Request failed: " ++ message)⟩
    | .raised e => .error e.val

/-- The client is what it makes of the requests it is given. -/
structure Executor where
  httpClient : ResolvedRequest → HttpReply

/-- `Executor.execute`: no request leaves where a template does not resolve. -/
def Executor.execute (self : Executor) (chainContext environmentVariables : Dict String String)
    (r : ApiRequest) : Except Exn ExecutionResult :=
  match resolveRequest chainContext environmentVariables r with
  | .error e =>
    if e.cls = .undefinedVariable then .ok ⟨none, 0, none, none, some e.message⟩ else .error e
  | .ok request => ApiTesting.execute r.timeoutMs (.ok request) (self.httpClient request)

end ApiTesting
