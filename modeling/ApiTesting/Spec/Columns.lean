import ApiTesting.Spec.TaskProcessor
import ApiTesting.Lib.Alphabet

/-! The domains of the columns of `app.models` a batch is written to, and of those
an attempt has read. `Text` and the strings of `JSONB` have no U+0000, and nothing
that UTF-8 has not; `Integer` has 32 bits and a sign. -/

namespace ApiTesting

open Keyed Alphabet

/-- A lone surrogate does not get as far as the server: the driver cannot encode it. -/
def storableChar : PyChar → Bool
  | .scalar c => c ≠ '\x00'
  | .surrogate _ => false

/-- `Text` -/
def textStorable (s : PyStr) : Bool := madeOf storableChar s

/-- `Integer` -/
def integerStorable (i : ℤ) : Bool := -2147483648 ≤ i && i ≤ 2147483647

namespace Json

mutual

/-- `JSONB` -/
def storable : Json → Bool
  | .str s => textStorable s
  | .arr xs => storableList xs
  | .obj ps => storableFields ps
  | _ => true

def storableList : List Json → Bool
  | [] => true
  | x :: xs => storable x && storableList xs

def storableFields : List (PyStr × Json) → Bool
  | [] => true
  | (k, v) :: ps => textStorable k && storable v && storableFields ps

end

end Json

/-- A `JSONB` object whose values are strings. -/
def stringsStorable (d : Dict String String) : Bool :=
  d.rows.all fun p => textStorable p.1 && textStorable p.2

/-! What a batch hands to Postgres. -/

def RequestResult.storable (r : RequestResult) : Bool :=
  integerStorable r.attemptNumber && r.statusCode.all integerStorable &&
    r.latencyMs.all (fun n : ℕ => integerStorable n) && r.responseHeaders.all stringsStorable &&
    r.responseBodySnippet.all textStorable && r.errorMessage.all textStorable

def ExecutionLog.storable (l : ExecutionLog) : Bool := textStorable l.message

/-- The result, the log line and the element of the bulk UPDATE one outcome becomes. -/
def TaskOutcome.storable (now : Timestamp) (o : TaskOutcome) : Bool :=
  (buildRequestResult now o).storable && (buildLog now o).storable && integerStorable o.retryCount

def Delta.storable (d : Delta) : Bool := integerStorable d.completed && integerStorable d.failed

/-- The strings of an element of `extract_rules`. -/
def ExtractRule.storable : ExtractRule → Bool
  | .jsonPath path saveAs => textStorable path && textStorable saveAs
  | .jwtClaim sourceVar claim saveAs =>
    textStorable sourceVar && textStorable claim && textStorable saveAs
  | .other type => textStorable type

def ApiRequest.storable (r : ApiRequest) : Bool :=
  textStorable r.name && textStorable r.url && stringsStorable r.headers &&
    stringsStorable r.queryParams && r.body.all textStorable && integerStorable r.orderIndex &&
    integerStorable r.timeoutMs && r.extractRules.all ExtractRule.storable

def Assertion.storable (a : Assertion) : Bool :=
  a.config.rows.all fun p => textStorable p.1 && p.2.storable

/-- The rows of the two tables are within the domains of their columns. -/
structure Database.Stored (db : Database) : Prop where
  apiRequests : ∀ r ∈ db.apiRequests.rows, r.storable
  assertions : ∀ a ∈ db.assertions.rows, a.storable

end ApiTesting
