import ApiTesting.Spec.Executor

/-! `worker.assertion_engine`: one outcome for every assertion. Whatever a check
raises becomes a failed outcome; what parsing the body raises does not. -/

namespace ApiTesting

open Keyed

structure AssertionOutcome where
  assertionId : UUID
  assertionType : String
  passed : Bool
  detail : PyStr

/-- `config[key]`. -/
def configItem (config : Dict String Json) (key : String) : Except Exn Json :=
  match config.lookup key with
  | some v => .ok v
  | none => .error ⟨.key, "'" ++ key ++ "'"⟩

def optInt : Option ℤ → Json
  | some n => .int n
  | none => .null

def optStr : Option String → Json
  | some s => .str s
  | none => .null

section
variable (lib : Libraries)

/-- What an f-string puts in for a value, and for one with `!r`. -/
def formatStr (value : Json) : Except Exn PyStr := (value.pyStr lib).mapError Subtype.val

def formatRepr (value : Json) : Except Exn PyStr :=
  ((value.repr lib).map PyStr.ofString).mapError Subtype.val

/-- `_try_parse_json` of both modules that parse a body: `None` for no body and
for a malformed one, and whatever else `json.loads` raises. -/
def tryParseJson (body : Option PyStr) : Except Exn Json :=
  match body with
  | none => .ok .null
  | some text =>
    if text = [] then .ok .null
    else
      match lib.jsonLoads text with
      | .ok v => .ok v
      | .error e =>
        if e.val.cls = .jsonDecode ∨ e.val.cls = .type then .ok .null else .error e.val

def checkStatusCodeEquals (result : ExecutionResult) (config : Dict String Json) :
    Except Exn (Bool × PyStr) := do
  let expected ← configItem config "expected"
  let actual := optInt result.statusCode
  let expectedText ← formatStr lib expected
  let actualText ← formatStr lib actual
  return (actual.pyEq expected, "expected status " ++ expectedText ++ ", got " ++ actualText)

/-- `parse_jsonpath(path).find(parsed_body)`; `parse` takes a string. -/
def findPath (path parsedBody : Json) : Except Exn (List Json) :=
  match path with
  | .str p => (lib.jsonPathFind p parsedBody).mapError Subtype.val
  | _ => .error ⟨.attribute, "path is not a string"⟩

def checkJsonPathEquals (parsedBody : Json) (config : Dict String Json) :
    Except Exn (Bool × PyStr) :=
  match parsedBody with
  | .null => .ok (false, "response body is not valid JSON")
  | body => do
    let path ← configItem config "path"
    let expected ← configItem config "expected"
    let found ← findPath lib path body
    let pathText ← formatStr lib path
    match found with
    | [] => return (false, "path '" ++ pathText ++ "' matched nothing")
    | actual :: _ =>
      let expectedText ← formatRepr lib expected
      let actualText ← formatRepr lib actual
      return (actual.pyEq expected,
        "path '" ++ pathText ++ "': expected " ++ expectedText ++ ", got " ++ actualText)

def checkJsonPathExists (parsedBody : Json) (config : Dict String Json) :
    Except Exn (Bool × PyStr) :=
  match parsedBody with
  | .null => .ok (false, "response body is not valid JSON")
  | body => do
    let path ← configItem config "path"
    let found ← findPath lib path body
    let pathText ← formatStr lib path
    match found with
    | [] => return (false, "path '" ++ pathText ++ "' did not match")
    | _ :: _ => return (true, "path '" ++ pathText ++ "' matched")

def checkResponseTimeBelow (result : ExecutionResult) (config : Dict String Json) :
    Except Exn (Bool × PyStr) := do
  let maxMs ← configItem config "max_ms"
  match maxMs.numeric? with
  | some m =>
    let maxText ← formatStr lib maxMs
    let latencyText ← formatStr lib (.int result.latencyMs)
    return (decide ((result.latencyMs : ℚ) < m),
      "expected under " ++ maxText ++ "ms, took " ++ latencyText ++ "ms")
  | none => .error ⟨.type, "'<' not supported between these types"⟩

/-- The first header of the name, ignoring case, and `None` where there is none. A name
with a lone surrogate is in no case the name of a header. -/
def findHeader (header : Json) (rows : List (String × String)) : Except Exn Json :=
  match header, rows with
  | .str name, _ =>
    .ok (optStr ((rows.find? fun p => lib.lower p.1 = name.encode?.map lib.lower).map Prod.snd))
  | _, [] => .ok .null
  | _, _ :: _ => .error ⟨.attribute, "object has no attribute 'lower'"⟩

def checkHeaderEquals (result : ExecutionResult) (config : Dict String Json) :
    Except Exn (Bool × PyStr) := do
  let header ← configItem config "header"
  let expected ← configItem config "expected"
  let actual ← findHeader lib header (result.responseHeaders.getD .empty).rows
  let headerText ← formatStr lib header
  let expectedText ← formatRepr lib expected
  let actualText ← formatRepr lib actual
  return (actual.pyEq expected,
    "header '" ++ headerText ++ "': expected " ++ expectedText ++ ", got " ++ actualText)

def evaluateOne (assertion : Assertion) (result : ExecutionResult) (parsedBody : Json) :
    AssertionOutcome :=
  let checked :=
    match assertion.type with
    | .statusCodeEquals => checkStatusCodeEquals lib result assertion.config
    | .jsonPathEquals => checkJsonPathEquals lib parsedBody assertion.config
    | .jsonPathExists => checkJsonPathExists lib parsedBody assertion.config
    | .responseTimeBelow => checkResponseTimeBelow lib result assertion.config
    | .headerEquals => checkHeaderEquals lib result assertion.config
  let (passed, detail) :=
    match checked with
    | .ok verdict => verdict
    | .error e => (false, "Assertion raised an error: " ++ e.message)
  { assertionId := assertion.id, assertionType := assertion.type.toValue, passed, detail }

def evaluateAssertions (assertions : List Assertion) (result : ExecutionResult) :
    Except Exn (List AssertionOutcome) := do
  let parsedBody ← tryParseJson lib result.responseBody
  return assertions.map fun a => evaluateOne lib a result parsedBody

end

end ApiTesting
