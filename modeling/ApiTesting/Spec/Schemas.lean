import ApiTesting.Spec.Services
import ApiTesting.Spec.TemplateResolver

/-! `app.schemas`: what the API accepts as a request definition or an assertion, and the
names it accepts for variables. A validator runs after the bounds of its field and may
change the value. -/

namespace ApiTesting

open Keyed

/-- `VARIABLE_NAME_PATTERN`; the end of the pattern is the end of the text. -/
def variableNamePattern (s : String) : Bool :=
  match s.toList with
  | [] => false
  | c :: cs => isNameStart c && cs.all isNameChar

/-- `Field(min_length=.., max_length=..)` -/
def lengthBetween (minLength maxLength : ℕ) (s : String) : Bool := minLength ≤ s.length && s.length ≤ maxLength

/-- `path_looks_like_jsonpath` -/
def pathLooksLikeJsonpath (path : String) : Bool := path.toList.head? = some '$'

/-- `JsonPathExtractRule` and `JwtClaimExtractRule`; no other type is in the union. -/
def ExtractRule.accepted : ExtractRule → Bool
  | .jsonPath path saveAs =>
    lengthBetween 1 500 path && lengthBetween 1 100 saveAs && variableNamePattern saveAs &&
      pathLooksLikeJsonpath path
  | .jwtClaim sourceVar claim saveAs =>
    lengthBetween 1 100 sourceVar && variableNamePattern sourceVar && lengthBetween 1 100 claim &&
      lengthBetween 1 100 saveAs && variableNamePattern saveAs
  | .other _ => false

/-- `strip_name` and `strip_url`. -/
def stripped (s : String) : Option String := if pyStrip s = "" then none else some (pyStrip s)

/-- The request definition as the API takes it, or `none` where it is refused. -/
def ApiRequestCreate.validate (r : ApiRequestCreate) : Option ApiRequestCreate := do
  guard (lengthBetween 1 255 r.name)
  guard (lengthBetween 1 2000 r.url)
  guard (r.body.all (lengthBetween 0 65536))
  guard (100 ≤ r.timeoutMs ∧ r.timeoutMs ≤ 300000)
  guard (r.extractRules.all ExtractRule.accepted)
  let name ← stripped r.name
  let url ← stripped r.url
  return { r with name, url }

/-- The row of an accepted request definition. -/
def ApiRequestCreate.toRow (r : ApiRequestCreate) (id collectionId : UUID) (orderIndex : ℕ) : ApiRequest :=
  { id, collectionId, name := r.name, method := r.method, url := r.url, headers := r.headers,
    queryParams := r.queryParams, body := r.body, orderIndex, timeoutMs := r.timeoutMs,
    extractRules := r.extractRules, createdAt := 0 }

/-- `AssertionCreate`; the constructor is the discriminator. -/
inductive AssertionCreate
  | statusCodeEquals (expected : ℤ)
  | jsonPathEquals (path : String) (expected : Json)
  | jsonPathExists (path : String)
  | responseTimeBelow (maxMs : ℤ)
  | headerEquals (header expected : String)

/-- `str | int | float | bool`; no longer integer is read from the body of a request. -/
def Json.scalar : Json → Bool
  | .str _ => true
  | .int i => (Nat.toDigits 10 i.natAbs).length ≤ intMaxStrDigits
  | .float _ => true
  | .bool _ => true
  | _ => false

namespace AssertionCreate

def accepted : AssertionCreate → Bool
  | .statusCodeEquals expected => 100 ≤ expected && expected ≤ 599
  | .jsonPathEquals path expected => lengthBetween 1 500 path && expected.scalar
  | .jsonPathExists path => lengthBetween 1 500 path
  | .responseTimeBelow maxMs => 0 < maxMs && maxMs ≤ 300000
  | .headerEquals header expected => lengthBetween 1 255 header && lengthBetween 0 2000 expected

def type : AssertionCreate → AssertionType
  | .statusCodeEquals _ => .statusCodeEquals
  | .jsonPathEquals _ _ => .jsonPathEquals
  | .jsonPathExists _ => .jsonPathExists
  | .responseTimeBelow _ => .responseTimeBelow
  | .headerEquals _ _ => .headerEquals

/-- `config.model_dump()` -/
def config : AssertionCreate → Dict String Json
  | .statusCodeEquals expected => ⟨[("expected", .int expected)], by simp⟩
  | .jsonPathEquals path expected => ⟨[("path", .str path), ("expected", expected)], by simp⟩
  | .jsonPathExists path => ⟨[("path", .str path)], by simp⟩
  | .responseTimeBelow maxMs => ⟨[("max_ms", .int maxMs)], by simp⟩
  | .headerEquals header expected => ⟨[("header", .str header), ("expected", .str expected)], by simp⟩

end AssertionCreate

/-- An assertion the API has taken. -/
structure AcceptedAssertion where
  id : UUID
  apiRequestId : UUID
  create : AssertionCreate
  createdAt : Timestamp
  accepted : create.accepted

/-- The row of it. -/
def AcceptedAssertion.row (a : AcceptedAssertion) : Assertion :=
  { id := a.id, apiRequestId := a.apiRequestId, type := a.create.type, config := a.create.config,
    createdAt := a.createdAt }

/-- `EnvironmentVariableCreate.key` -/
def environmentVariableCreateKey (key : String) : Bool := lengthBetween 1 255 key && variableNamePattern key

/-- `EnvironmentVariableUpdate.key`, which has no least length of its own. -/
def environmentVariableUpdateKey (key : String) : Bool := lengthBetween 0 255 key && variableNamePattern key

/-- `TestRunCreate.validate_data_rows`; the keys of a row are any strings. -/
def validateDataRows (dataRows : Option (List (Dict String String))) : Bool :=
  dataRows.all fun rows => rows.length ≠ 0

end ApiTesting
