import ApiTesting.Spec.Export
import ApiTesting.Proofs.ContextKeys
import ApiTesting.Proofs.Isolation
import ApiTesting.Proofs.Launch

/-! What an export says. The file is read back as the columns and the rows that were
written, and the columns tell the row, but for an error message that is empty. -/

namespace ApiTesting

open Csv Fallible Keyed

/-- No column of the row is longer than the reader takes. -/
def ResultExportRow.Readable (isoformat : Timestamp → String) (row : ResultExportRow) : Prop :=
  ∀ column ∈ row.values isoformat, column.length ≤ fieldSizeLimit

instance (isoformat : Timestamp → String) (row : ResultExportRow) : Decidable (row.Readable isoformat) :=
  inferInstanceAs (Decidable (∀ column ∈ row.values isoformat, column.length ≤ fieldSizeLimit))

/-- The reader gets the header and the rows, and raises where a column is too long. -/
theorem csvReader_rowsToCsv (isoformat : Timestamp → String) (rows : List ResultExportRow) :
    csvReader (rowsToCsv isoformat rows) =
      if ∀ row ∈ rows, row.Readable isoformat then
        some (ResultExportRow.fieldnames :: rows.map (ResultExportRow.values isoformat))
      else none := by
  have hheader : fits fieldSizeLimit ResultExportRow.fieldnames = true := by decide +kernel
  have hrows : (ResultExportRow.fieldnames :: rows.map (ResultExportRow.values isoformat)).all
      (fits fieldSizeLimit) = true ↔ ∀ row ∈ rows, row.Readable isoformat := by
    rw [List.all_cons, hheader, Bool.true_and, List.all_map, List.all_eq_true]
    simp only [Function.comp_apply, fits, List.all_eq_true, decide_eq_true_eq, ResultExportRow.Readable]
  rw [csvReader, rowsToCsv, read_write]
  exact if_congr hrows rfl rfl

theorem HttpMethod.value_inj {m m' : HttpMethod} (h : m.value = m'.value) : m = m' := by
  cases m <;> cases m' <;> first | rfl | exact absurd h (by decide)

theorem natText_inj {i j : ℕ} (h : toString i = toString j) : i = j :=
  RunContext.toString_inj (congrArg String.toList h)

theorem mem_natText {n : ℕ} {c : Char} (h : c ∈ (toString n).toList) : c.isDigit := by
  have hmem : c ∈ Nat.toDigits 10 n := by rwa [← Nat.toList_repr]
  exact Nat.isDigit_of_mem_toDigits (by decide) (by decide) hmem

theorem natText_ne_empty (n : ℕ) : toString n ≠ "" := by
  intro h
  have htext : (toString n).toList = Nat.toDigits 10 n := Nat.toList_repr
  rw [h] at htext
  exact Nat.toDigits_ne_nil htext.symm

theorem natText_ne_negative {i j : ℕ} : toString i ≠ "-" ++ toString j := by
  intro h
  have hminus : '-' ∈ (toString i).toList := by rw [h]; simp
  exact absurd (mem_natText hminus) (by decide)

theorem intText_inj {i j : ℤ} (h : toString i = toString j) : i = j := by
  cases i with
  | ofNat m =>
    cases j with
    | ofNat n => rw [natText_inj h]
    | negSucc n => exact absurd h natText_ne_negative
  | negSucc m =>
    cases j with
    | ofNat n => exact absurd h.symm natText_ne_negative
    | negSucc n =>
      have htext : "-" ++ toString (m + 1) = "-" ++ toString (n + 1) := h
      have htext := congrArg String.toList htext
      rw [String.toList_append, String.toList_append] at htext
      rw [Nat.succ.inj (RunContext.toString_inj (List.append_cancel_left htext))]

theorem intText_ne_empty (i : ℤ) : toString i ≠ "" := by
  cases i with
  | ofNat n => exact natText_ne_empty n
  | negSucc n =>
    intro h
    have htext : "-" ++ toString (n + 1) = "" := h
    simpa using congrArg String.toList htext

theorem boolText_inj {b b' : Bool} (h : boolText b = boolText b') : b = b' := by
  cases b <;> cases b' <;> first | rfl | exact absurd h (by decide)

/-- A column tells a value from `None` if the texts of values are not empty. -/
theorem cell_inj {α : Type} {str : α → String} (hinj : ∀ {a b}, str a = str b → a = b) (hne : ∀ a, str a ≠ "")
    {o o' : Option α} (h : cell (fun a => str a) o = cell (fun a => str a) o') : o = o' := by
  match o, o' with
  | none, none => rfl
  | none, some b => exact absurd (PyStr.ofString_eq_nil.1 h.symm) (hne b)
  | some a, none => exact absurd (PyStr.ofString_eq_nil.1 h) (hne a)
  | some a, some b => rw [hinj (PyStr.ofString_inj.1 h)]

namespace ResultExportRow

/-- What the columns say of a row: `None` and the empty message are one. -/
def shown (row : ResultExportRow) : ResultExportRow :=
  { row with errorMessage := some (row.errorMessage.getD []) }

variable {isoformat : Timestamp → String}

theorem values_shown (row : ResultExportRow) : row.shown.values isoformat = row.values isoformat := by
  cases h : row.errorMessage <;> simp [shown, values, cell, h]

/-- The columns tell the row. -/
theorem values_inj (hiso : Function.Injective isoformat) {row row' : ResultExportRow}
    (hid : row.testTaskId < 2 ^ 128) (hid' : row'.testTaskId < 2 ^ 128)
    (h : row.values isoformat = row'.values isoformat) : row.shown = row'.shown := by
  obtain ⟨task, name, method, url, index, attempt, status, latency, passed, error, executed⟩ := row
  obtain ⟨task', name', method', url', index', attempt', status', latency', passed', error', executed'⟩ := row'
  simp only [values, List.cons.injEq, and_true] at h
  obtain ⟨h₁, h₂, h₃, h₄, h₅, h₆, h₇, h₈, h₉, h₁₀, h₁₁⟩ := h
  have herror : error.getD [] = error'.getD [] := by
    cases error <;> cases error' <;> exact h₁₀
  simp only [shown, mk.injEq]
  rw [PyStr.ofString_inj] at h₁ h₂ h₃ h₄ h₆ h₁₁
  exact ⟨uuidText_inj hid hid' h₁, h₂, HttpMethod.value_inj h₃, h₄, cell_inj natText_inj natText_ne_empty h₅,
    natText_inj h₆, cell_inj intText_inj intText_ne_empty h₇, cell_inj natText_inj natText_ne_empty h₈,
    cell_inj boolText_inj (by decide) h₉, congrArg some herror, hiso h₁₁⟩

end ResultExportRow

theorem map_values_inj {isoformat : Timestamp → String} (hiso : Function.Injective isoformat)
    {rows rows' : List ResultExportRow} (hids : ∀ r ∈ rows, r.testTaskId < 2 ^ 128)
    (hids' : ∀ r ∈ rows', r.testTaskId < 2 ^ 128)
    (h : rows.map (ResultExportRow.values isoformat) = rows'.map (ResultExportRow.values isoformat)) :
    rows.map ResultExportRow.shown = rows'.map ResultExportRow.shown := by
  induction rows generalizing rows' with
  | nil =>
    cases rows' with
    | nil => rfl
    | cons r' rows' => exact nomatch h
  | cons r rows ih =>
    cases rows' with
    | nil => exact nomatch h
    | cons r' rows' =>
      simp only [List.map_cons, List.cons.injEq] at h ⊢
      rw [List.forall_mem_cons] at hids hids'
      exact ⟨ResultExportRow.values_inj hiso hids.1 hids'.1 h.1, ih hids.2 hids'.2 h.2⟩

theorem rowsToCsv_eq_iff {isoformat : Timestamp → String} (hiso : Function.Injective isoformat)
    {rows rows' : List ResultExportRow} (hids : ∀ r ∈ rows, r.testTaskId < 2 ^ 128)
    (hids' : ∀ r ∈ rows', r.testTaskId < 2 ^ 128) :
    rowsToCsv isoformat rows = rowsToCsv isoformat rows' ↔
      rows.map ResultExportRow.shown = rows'.map ResultExportRow.shown := by
  constructor
  · intro h
    exact map_values_inj hiso hids hids' (List.cons.inj (write_injective h)).2
  · intro h
    have hvalues : ∀ rows : List ResultExportRow, rows.map (ResultExportRow.values isoformat) =
        (rows.map ResultExportRow.shown).map (ResultExportRow.values isoformat) := by
      simp [ResultExportRow.values_shown]
    rw [rowsToCsv, rowsToCsv, hvalues rows, hvalues rows', h]

/-- The rows of a run as a user may see them, and the ids of its tasks are those of UUIDs. -/
def Exports (currentUser : User) (runId : UUID) (s : Session) (rows : List ResultExportRow) : Prop :=
  (TestRunService.exportResults currentUser runId s).1 = .ok rows ∧ ∀ r ∈ rows, r.testTaskId < 2 ^ 128

theorem exportRunResults_eq (isoformat : Timestamp → String) (currentUser : User) (runId : UUID) (s : Session) :
    (exportRunResults isoformat currentUser runId s).1 =
      (TestRunService.exportResults currentUser runId s).1.map fun rows =>
        (rowsToCsv isoformat rows, "run-" ++ uuidText runId ++ "-results.csv") := by
  change ((TestRunService.exportResults currentUser runId >>= fun rows =>
    pure (rowsToCsv isoformat rows, "run-" ++ uuidText runId ++ "-results.csv")) s).1 = _
  rcases hx : TestRunService.exportResults currentUser runId s with ⟨e | rows, s'⟩
  · rw [bind_of_error _ hx]
    rfl
  · rw [bind_of_ok _ hx]
    rfl

/-- The file of an export is read back as the header and a row for each attempt, whatever the
names, addresses and messages hold, unless a column is longer than the reader takes; and two
files are the same just when the rows are, up to a message that is empty in the one and
missing in the other. -/
theorem csv_export_lossless (isoformat : Timestamp → String) (hiso : Function.Injective isoformat)
    {currentUser currentUser' : User} {runId runId' : UUID} {s s' : Session} {rows rows' : List ResultExportRow}
    (h : Exports currentUser runId s rows) (h' : Exports currentUser' runId' s' rows') :
    ∃ content content',
      (exportRunResults isoformat currentUser runId s).1 =
        .ok (content, "run-" ++ uuidText runId ++ "-results.csv") ∧
      (exportRunResults isoformat currentUser' runId' s').1 =
        .ok (content', "run-" ++ uuidText runId' ++ "-results.csv") ∧
      (csvReader content = some (ResultExportRow.fieldnames :: rows.map (ResultExportRow.values isoformat)) ↔
        ∀ row ∈ rows, row.Readable isoformat) ∧
      (csvReader content = none ↔ ∃ row ∈ rows, ¬ row.Readable isoformat) ∧
      (content = content' ↔ rows.map ResultExportRow.shown = rows'.map ResultExportRow.shown) := by
  refine ⟨rowsToCsv isoformat rows, rowsToCsv isoformat rows', ?_, ?_, ?_, ?_, rowsToCsv_eq_iff hiso h.2 h'.2⟩
  · rw [exportRunResults_eq, h.1]
    rfl
  · rw [exportRunResults_eq, h'.1]
    rfl
  · rw [csvReader_rowsToCsv, ite_eq_left_iff]
    simp
  · rw [csvReader_rowsToCsv, ite_eq_right_iff]
    simp

/-- The text of the epoch, and some other text for any other time. -/
def epochText (t : Timestamp) : String := if t = 0 then "1970-01-01T00:00:00Z" else toString t

theorem epochText_injective : Function.Injective epochText := by
  have hepoch : ∀ t : ℕ, "1970-01-01T00:00:00Z" ≠ toString t := by
    intro t h
    have hdash : '-' ∈ (toString t).toList := by rw [← h]; decide
    exact absurd (mem_natText hdash) (by decide)
  intro t t' h
  unfold epochText at h
  split at h <;> split at h
  · rename_i h₁ h₂
    rw [h₁, h₂]
  · exact absurd h (hepoch t')
  · exact absurd h.symm (hepoch t)
  · exact natText_inj h

/-- A run of one request whose name needs quotes, with one attempt. -/
def quotedRun (errorMessage : Option PyStr) : Database :=
  { tenant with
    apiRequests := Table.empty.set
      ⟨5, 4, "Ping, \"fast\"", .get, "http://ping", .empty, .empty, none, 0, 1000, [], 0⟩
    testRuns := Table.empty.set { startedRun 7 1 with collectionId := 4 }
    testTasks := Table.empty.set (pendingTask 8 7 5 0 3)
    requestResults := [⟨8, 1, none, some 40, none, none, none, errorMessage, none, 0⟩] }

def quotedRow (errorMessage : Option PyStr) : ResultExportRow :=
  ⟨8, "Ping, \"fast\"", .get, "http://ping", none, 1, none, some 40, none, errorMessage, 0⟩

theorem exports_quotedRun (errorMessage : Option PyStr) :
    Exports ⟨2, "owner@acme.test"⟩ 7 (World.session ⟨quotedRun errorMessage, .empty, 10⟩ ⟨0, fun _ => .ok, .ok, .table⟩)
      [quotedRow errorMessage] := by
  refine ⟨rfl, fun r hr => ?_⟩
  rw [List.mem_singleton.1 hr]
  exact (by decide : 8 < 2 ^ 128)

/-- A message of two lines, and none at all. -/
theorem csv_export_lossless_quoted :
    ∃ content content',
      (exportRunResults epochText ⟨2, "owner@acme.test"⟩ 7 (World.session
        ⟨quotedRun (some (PyStr.ofString "reset\r\nby peer")), .empty, 10⟩ ⟨0, fun _ => .ok, .ok, .table⟩)).1 =
        .ok (content, "run-" ++ uuidText 7 ++ "-results.csv") ∧
      (exportRunResults epochText ⟨2, "owner@acme.test"⟩ 7 (World.session
        ⟨quotedRun none, .empty, 10⟩ ⟨0, fun _ => .ok, .ok, .table⟩)).1 =
        .ok (content', "run-" ++ uuidText 7 ++ "-results.csv") ∧
      (csvReader content = some (ResultExportRow.fieldnames ::
          [quotedRow (some (PyStr.ofString "reset\r\nby peer"))].map (ResultExportRow.values epochText)) ↔
        ∀ row ∈ [quotedRow (some (PyStr.ofString "reset\r\nby peer"))], row.Readable epochText) ∧
      (csvReader content = none ↔
        ∃ row ∈ [quotedRow (some (PyStr.ofString "reset\r\nby peer"))], ¬ row.Readable epochText) ∧
      (content = content' ↔
        [quotedRow (some (PyStr.ofString "reset\r\nby peer"))].map ResultExportRow.shown =
          [quotedRow none].map ResultExportRow.shown) :=
  csv_export_lossless epochText epochText_injective (exports_quotedRun _) (exports_quotedRun _)

end ApiTesting
