import ApiTesting.Lib.Csv
import ApiTesting.Spec.TestRunService
import ApiTesting.Spec.Queue

/-! The CSV of `export_run_results` in `app.routers.runs`. -/

namespace ApiTesting

/-- The `excel` dialect. -/
def excel : Csv.Dialect PyChar :=
  ⟨.scalar ',', .scalar '"', .scalar '\r', .scalar '\n', by decide, by decide, by decide, by decide⟩

/-- `csv.field_size_limit()`, as it is set from the start. -/
def fieldSizeLimit : ℕ := 131072

namespace HttpMethod

def value : HttpMethod → String
  | get => "GET"
  | post => "POST"
  | put => "PUT"
  | patch => "PATCH"
  | delete => "DELETE"
  | head => "HEAD"
  | options => "OPTIONS"

end HttpMethod

/-- `str` of what is not `None`, which is written as the empty field. -/
def cell {α : Type} (str : α → PyStr) : Option α → PyStr
  | some a => str a
  | none => []

def boolText (b : Bool) : String := if b then "True" else "False"

namespace ResultExportRow

/-- `ResultExportRow.model_fields` -/
def fieldnames : List PyStr :=
  ["test_task_id", "api_request_name", "method", "url", "data_row_index", "attempt_number",
    "status_code", "latency_ms", "assertions_passed", "error_message", "executed_at"]

variable (isoformat : Timestamp → String)

/-- The values of `model_dump(mode="json")`, as the writer prints them. -/
def values (row : ResultExportRow) : List PyStr :=
  [uuidText row.testTaskId, row.apiRequestName, row.method.value, row.url,
    cell (fun i : ℕ => toString i) row.dataRowIndex, toString row.attemptNumber,
    cell (fun i : ℤ => toString i) row.statusCode, cell (fun i : ℕ => toString i) row.latencyMs,
    cell (fun b => boolText b) row.assertionsPassed, cell id row.errorMessage, isoformat row.executedAt]

end ResultExportRow

variable (isoformat : Timestamp → String)

/-- `_rows_to_csv` -/
def rowsToCsv (rows : List ResultExportRow) : PyStr :=
  Csv.write excel (ResultExportRow.fieldnames :: rows.map (ResultExportRow.values isoformat))

/-- `csv.reader` over the text. -/
def csvReader (content : PyStr) : Option (List (List PyStr)) := Csv.read excel fieldSizeLimit content

/-- `export_run_results` with `format=csv`: the content and the name of the file. -/
def exportRunResults (currentUser : User) (runId : UUID) : ServiceM (PyStr × String) := do
  let rows ← TestRunService.exportResults currentUser runId
  return (rowsToCsv isoformat rows, "run-" ++ uuidText runId ++ "-results.csv")

end ApiTesting
