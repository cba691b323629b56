import ApiTesting.Proofs.Escapes

/-! What an assertion says of a result, and when its verdict says so. The engine asks the
interpreter whether two values are equal, to which `True` is `1`; it takes a body that is
the text `null` for one that is no JSON; and it looks at one header of a name. -/

namespace ApiTesting

open Keyed Fallible

namespace Json

/-- The value of a number; a boolean is none. -/
def number? : Json → Option ℚ
  | .int i => some i
  | .float (.finite q _) => some q
  | .float .negZero => some 0
  | _ => none

mutual

/-- Equality of JSON values. -/
def same : Json → Json → Bool
  | .null, .null => true
  | .bool a, .bool b => a == b
  | .str s, .str t => s == t
  | .arr xs, .arr ys => sameList xs ys
  | .obj ps, .obj qs => ps.length == qs.length && sameFields ps qs
  | .float (.inf s), .float (.inf t) => s == t
  | a, b =>
    match number? a, number? b with
    | some x, some y => decide (x = y)
    | _, _ => false

def sameList : List Json → List Json → Bool
  | [], [] => true
  | x :: xs, y :: ys => same x y && sameList xs ys
  | _, _ => false

def sameFields : List (PyStr × Json) → List (PyStr × Json) → Bool
  | [], _ => true
  | (k, v) :: ps, qs =>
    (match qs.lookup k with
      | some w => same v w
      | none => false) && sameFields ps qs

end

def isBool : Json → Bool
  | .bool _ => true
  | _ => false

/-- One of the two is a boolean, the other a number, and the interpreter takes them for equal. -/
def confused (a b : Json) : Bool := a.isBool != b.isBool && a.pyEq b

/-- Between two scalars the equality of the interpreter is that of JSON, save for booleans. -/
theorem pyEq_scalar {found expected : Json} (h : expected.scalar) :
    found.pyEq expected = (found.same expected || found.confused expected) := by
  cases expected with
  | null => cases h
  | arr xs => cases h
  | obj ps => cases h
  | str s =>
    cases found with
    | float x => cases x <;> rfl
    | _ => simp [pyEq, same, confused, isBool, numeric?, number?]
  | bool b =>
    cases found with
    | bool a => cases a <;> cases b <;> simp [pyEq, same, confused, isBool, numeric?]
    | float x => cases x <;> simp [pyEq, same, confused, isBool, numeric?, number?]
    | _ => simp [pyEq, same, confused, isBool, numeric?, number?]
  | int i =>
    cases found with
    | float x => cases x <;> simp [pyEq, same, confused, isBool, numeric?, number?]
    | _ => simp [pyEq, same, confused, isBool, numeric?, number?]
  | float y =>
    cases found with
    | float x => cases x <;> cases y <;> simp [pyEq, same, confused, isBool, numeric?, number?]
    | _ => cases y <;> simp [pyEq, same, confused, isBool, numeric?, number?]

theorem same_of_confused {found expected : Json} (h : expected.scalar) (hc : found.confused expected) :
    found.same expected = false := by
  cases expected with
  | null => cases h
  | arr xs => cases h
  | obj ps => cases h
  | bool b =>
    cases found with
    | bool a => cases hc
    | float x => cases x <;> rfl
    | _ => rfl
  | float y =>
    cases found with
    | bool a => cases y <;> rfl
    | _ => cases hc
  | _ =>
    cases found with
    | bool a => rfl
    | _ => cases hc

end Json

section
variable (lib : Libraries)

/-- The document a body is the text of; the empty text is no JSON. -/
def documentOf (body : Option PyStr) : Option Json :=
  match body with
  | none => none
  | some text => if text = [] then none else (lib.jsonLoads text).toOption

/-- The first value at a path. -/
def firstAt (path : String) (document : Json) : Option Json :=
  (lib.jsonPathFind path document).toOption.bind List.head?

def ExecutionResult.headers (result : ExecutionResult) : List (String × String) :=
  (result.responseHeaders.getD .empty).rows

namespace AssertionCreate

/-- What an assertion says of a result. -/
def holds (result : ExecutionResult) : AssertionCreate → Bool
  | .statusCodeEquals expected => result.statusCode = some expected
  | .jsonPathEquals path expected =>
    (documentOf lib result.responseBody).any fun document =>
      (firstAt lib path document).any (Json.same · expected)
  | .jsonPathExists path =>
    (documentOf lib result.responseBody).any fun document => (firstAt lib path document).isSome
  | .responseTimeBelow maxMs => (result.latencyMs : ℤ) < maxMs
  | .headerEquals header expected =>
    result.headers.any fun p => lib.lower p.1 = lib.lower header ∧ p.2 = expected

/-- The assertions that are read wrong: on the text `null`, one that holds of it; a boolean
is found for a number or the other way round; and a header that has the expected value
comes after one that differs from it in case and has another value. -/
def Misread (result : ExecutionResult) : AssertionCreate → Prop
  | .jsonPathEquals path expected =>
    ∃ document found, documentOf lib result.responseBody = some document ∧
      firstAt lib path document = some found ∧
        (document = .null ∧ found.same expected ∨ document ≠ .null ∧ found.confused expected)
  | .jsonPathExists path =>
    documentOf lib result.responseBody = some .null ∧ (firstAt lib path .null).isSome
  | .headerEquals header expected =>
    ∃ p ∈ result.headers, lib.lower p.1 = lib.lower header ∧ p.2 = expected ∧
      ∃ q, result.headers.find? (fun q => lib.lower q.1 = lib.lower header) = some q ∧ q.2 ≠ expected
  | _ => False

end AssertionCreate

end

section
variable {lib : Libraries} {result : ExecutionResult} {body : Json}

theorem documentOf_cases (h : tryParseJson lib result.responseBody = .ok body) :
    documentOf lib result.responseBody = some body ∨
      documentOf lib result.responseBody = none ∧ body = .null := by
  rcases hb : result.responseBody with _ | text
  · rw [hb] at h
    cases h
    exact .inr ⟨rfl, rfl⟩
  · rw [hb] at h
    cases tryParseJson_eq_ok_iff.1 h with
    | empty hempty => exact .inr ⟨by simp [documentOf, hempty], rfl⟩
    | parsed hne hloads => exact .inl (by simp [documentOf, hne, hloads, Except.toOption])
    | malformed hne hloads => exact .inr ⟨by simp [documentOf, hne, hloads, Except.toOption], rfl⟩

/-- What a check lets pass; one that raises lets nothing. -/
def lets : Except Exn (Bool × PyStr) → Bool
  | .ok verdict => verdict.1
  | .error _ => false

/-- The last text of a detail does no harm, if it can be written where the check passes. -/
theorem lets_formatted {x : Except Exn PyStr} {passed : Bool} (detail : PyStr → PyStr)
    (h : passed → ∃ text, x = .ok text) : lets (x >>= fun text => pure (passed, detail text)) = passed := by
  rcases x with e | text
  · refine (Bool.eq_false_iff.2 fun hp => ?_).symm
    obtain ⟨text, ht⟩ := h hp
    cases ht
  · rfl

theorem reprInt_of_digits {i : ℤ} (h : (Nat.toDigits 10 i.natAbs).length ≤ intMaxStrDigits) :
    reprInt i = .ok (toString i) := if_pos h

theorem digits_of_lt {i : ℤ} (h : i.natAbs < 2 ^ floatMaxExp) :
    (Nat.toDigits 10 i.natAbs).length ≤ intMaxStrDigits := by
  refine (Nat.length_toDigits_le_iff (by decide) (by decide)).2 (h.trans_le ?_)
  calc
    2 ^ floatMaxExp ≤ 10 ^ floatMaxExp := Nat.pow_le_pow_left (by decide) floatMaxExp
    _ ≤ 10 ^ intMaxStrDigits := Nat.pow_le_pow_right (by decide) (by decide)

/-- An integer that is a double can be written. -/
theorem digits_of_inFloatRange {i : ℤ} {q : ℚ} (h : (i : ℚ) = q) (hq : InFloatRange q) :
    (Nat.toDigits 10 i.natAbs).length ≤ intMaxStrDigits := by
  subst h
  unfold InFloatRange at hq
  exact digits_of_lt (by simpa using hq)

theorem formatStr_int {i : ℤ} (h : (Nat.toDigits 10 i.natAbs).length ≤ intMaxStrDigits) :
    formatStr lib (.int i) = .ok (PyStr.ofString (toString i)) := by
  have hrepr : Json.repr lib (.int i) = .ok (toString i) := by rw [Json.repr, reprInt_of_digits h]
  change (((Json.repr lib (.int i)).map PyStr.ofString).mapError Subtype.val) = _
  rw [hrepr]
  rfl

theorem formatStr_small {i : ℤ} (h : i.natAbs ≤ 300000) :
    formatStr lib (.int i) = .ok (PyStr.ofString (toString i)) :=
  formatStr_int (digits_of_lt (h.trans_lt
    ((by decide : 300000 < 2 ^ 19).trans (Nat.pow_lt_pow_right (by decide) (by decide)))))

theorem formatRepr_of_repr {value : Json} {text : String} (h : value.repr lib = .ok text) :
    formatRepr lib value = .ok (PyStr.ofString text) := by
  rw [formatRepr, h]
  rfl

variable (lib) in
theorem formatRepr_str (s : PyStr) : ∃ text, formatRepr lib (.str s) = .ok text :=
  ⟨_, formatRepr_of_repr (by rw [Json.repr])⟩

theorem formatRepr_int {i : ℤ} (h : (Nat.toDigits 10 i.natAbs).length ≤ intMaxStrDigits) :
    ∃ text, formatRepr lib (.int i) = .ok text :=
  ⟨_, formatRepr_of_repr (by rw [Json.repr, reprInt_of_digits h])⟩

variable (lib) in
theorem formatRepr_scalar {expected : Json} (h : expected.scalar) :
    ∃ text, formatRepr lib expected = .ok text := by
  cases expected with
  | null => cases h
  | arr xs => cases h
  | obj ps => cases h
  | int i => exact formatRepr_int (of_decide_eq_true h)
  | _ => exact ⟨_, formatRepr_of_repr (by rw [Json.repr])⟩

/-- A value the interpreter takes for equal to an accepted one can be written as well. -/
theorem formatRepr_of_pyEq {found expected : Json} (h : expected.scalar) (heq : found.pyEq expected) :
    ∃ text, formatRepr lib found = .ok text := by
  cases found with
  | int i =>
    cases expected with
    | int j =>
      have hij : i = j := by simpa [Json.pyEq, Json.numeric?] using heq
      exact formatRepr_int (hij ▸ of_decide_eq_true h)
    | bool b =>
      have hib : (i : ℚ) = if b then 1 else 0 := by simpa [Json.pyEq, Json.numeric?] using heq
      have hsmall : i.natAbs ≤ 1 := by
        cases b <;> simp at hib <;> simp [hib]
      exact formatRepr_int (digits_of_lt (hsmall.trans_lt (Nat.one_lt_two_pow (by decide))))
    | float x =>
      cases x with
      | finite q hq =>
        exact formatRepr_int (digits_of_inFloatRange (by simpa [Json.pyEq, Json.numeric?] using heq) hq)
      | negZero =>
        have hzero : i = 0 := by simpa [Json.pyEq, Json.numeric?] using heq
        exact formatRepr_int (by rw [hzero]; decide)
      | _ => simp [Json.pyEq, Json.numeric?] at heq
    | _ => simp [Json.pyEq, Json.numeric?] at heq
  | arr xs => cases expected <;> simp [Json.scalar, Json.pyEq, Json.numeric?] at h heq
  | obj ps => cases expected <;> simp [Json.scalar, Json.pyEq, Json.numeric?] at h heq
  | _ => exact ⟨_, formatRepr_of_repr (by rw [Json.repr])⟩

theorem lets_checkStatusCodeEquals {expected : ℤ} (h : (AssertionCreate.statusCodeEquals expected).accepted) :
    lets (checkStatusCodeEquals lib result (AssertionCreate.statusCodeEquals expected).config) =
      decide (result.statusCode = some expected) := by
  have hitem : configItem (AssertionCreate.statusCodeEquals expected).config "expected" =
      .ok (.int expected) := rfl
  have hexpected : formatStr lib (.int expected) = .ok (PyStr.ofString (toString expected)) := by
    simp only [AssertionCreate.accepted, Bool.and_eq_true, decide_eq_true_eq] at h
    exact formatStr_small (by omega)
  have hpassed : (optInt result.statusCode).pyEq (.int expected) = decide (result.statusCode = some expected) := by
    cases result.statusCode <;> simp [optInt, Json.pyEq, Json.numeric?]
  rw [checkStatusCodeEquals, hitem, ← hpassed]
  simp only [ok_bind, hexpected]
  refine lets_formatted (fun text => "expected status " ++ PyStr.ofString (toString expected) ++ ", got " ++ text)
    fun hp => ?_
  rw [hpassed, decide_eq_true_eq] at hp
  rw [hp]
  exact ⟨_, hexpected⟩

theorem formatStr_str (s : PyStr) : formatStr lib (.str s) = .ok s := rfl

theorem lets_checkJsonPathEquals {path : String} {expected : Json} (hscalar : expected.scalar)
    (hnull : body ≠ .null) :
    lets (checkJsonPathEquals lib body (AssertionCreate.jsonPathEquals path expected).config) =
      (firstAt lib path body).any (Json.pyEq · expected) := by
  have hpath : configItem (AssertionCreate.jsonPathEquals path expected).config "path" =
      .ok (.str path) := rfl
  have hexpected : configItem (AssertionCreate.jsonPathEquals path expected).config "expected" =
      .ok expected := rfl
  obtain ⟨expectedText, htext⟩ := formatRepr_scalar lib hscalar
  unfold checkJsonPathEquals
  split
  · exact absurd rfl hnull
  · rw [hpath, hexpected]
    rcases hfind : lib.jsonPathFind path body with e | _ | ⟨found, rest⟩
    · simp only [ok_bind, findPath, hfind, firstAt]
      rfl
    · simp only [ok_bind, findPath, hfind, firstAt]
      rfl
    · have hfirst : firstAt lib path body = some found := by
        simp [firstAt, hfind, Except.toOption]
      simp only [ok_bind, findPath, hfind, formatStr_str, htext, Except.mapError, hfirst, Option.any_some]
      exact lets_formatted (fun text => "path '" ++ PyStr.ofString path ++ "': expected " ++ expectedText ++
        ", got " ++ text) fun hp => formatRepr_of_pyEq hscalar hp

theorem lets_checkJsonPathExists {path : String} (hnull : body ≠ .null) :
    lets (checkJsonPathExists lib body (AssertionCreate.jsonPathExists path).config) =
      (firstAt lib path body).isSome := by
  have hpath : configItem (AssertionCreate.jsonPathExists path).config "path" = .ok (.str path) := rfl
  unfold checkJsonPathExists
  split
  · exact absurd rfl hnull
  · rw [hpath]
    rcases hfind : lib.jsonPathFind path body with e | _ | ⟨found, rest⟩ <;>
      simp only [ok_bind, findPath, hfind, firstAt] <;> rfl

theorem lets_checkResponseTimeBelow {maxMs : ℤ} (h : (AssertionCreate.responseTimeBelow maxMs).accepted) :
    lets (checkResponseTimeBelow lib result (AssertionCreate.responseTimeBelow maxMs).config) =
      decide ((result.latencyMs : ℤ) < maxMs) := by
  have hitem : configItem (AssertionCreate.responseTimeBelow maxMs).config "max_ms" = .ok (.int maxMs) := rfl
  have hcast : (result.latencyMs : ℚ) < maxMs ↔ (result.latencyMs : ℤ) < maxMs := by exact_mod_cast Iff.rfl
  simp only [AssertionCreate.accepted, Bool.and_eq_true, decide_eq_true_eq] at h
  have hmax : formatStr lib (.int maxMs) = .ok (PyStr.ofString (toString maxMs)) := formatStr_small (by omega)
  rw [checkResponseTimeBelow, hitem]
  simp only [ok_bind, Json.numeric?, hmax, hcast]
  refine lets_formatted (fun text => "expected under " ++ PyStr.ofString (toString maxMs) ++ "ms, took " ++
    text ++ "ms") fun hp => ⟨_, formatStr_small ?_⟩
  rw [decide_eq_true_eq] at hp
  omega

theorem lets_checkHeaderEquals (header expected : String) :
    lets (checkHeaderEquals lib result (AssertionCreate.headerEquals header expected).config) =
      (result.headers.find? fun p => lib.lower p.1 = lib.lower header).any fun p => p.2 = expected := by
  have hheader : configItem (AssertionCreate.headerEquals header expected).config "header" =
      .ok (.str header) := rfl
  have hexpected : configItem (AssertionCreate.headerEquals header expected).config "expected" =
      .ok (.str expected) := rfl
  have hfound : findHeader lib (.str header) (result.responseHeaders.getD .empty).rows =
      .ok (optStr ((result.headers.find? fun p => lib.lower p.1 = lib.lower header).map Prod.snd)) := by
    simp [findHeader, ExecutionResult.headers]
  obtain ⟨expectedText, htext⟩ := formatRepr_str lib expected
  rw [checkHeaderEquals, hheader, hexpected]
  simp only [ok_bind, hfound, formatStr_str, htext]
  generalize result.headers.find? (fun p => lib.lower p.1 = lib.lower header) = found
  rcases found with _ | p
  · rfl
  · obtain ⟨actualText, hactual⟩ := formatRepr_str lib p.2
    have hpyEq : (optStr (some p.2)).pyEq (.str expected) = decide (p.2 = expected) := by
      simp [optStr, Json.pyEq, beq_eq_decide]
    rw [Option.any_some, ← hpyEq]
    exact lets_formatted (fun text => "header '" ++ PyStr.ofString header ++ "': expected " ++ expectedText ++
      ", got " ++ text) fun _ => ⟨actualText, hactual⟩

/-! One assertion of each kind whose check can go wrong. -/

theorem jsonPathEquals_iff (h : tryParseJson lib result.responseBody = .ok body) {path : String}
    {expected : Json} (hexpected : expected.scalar) :
    lets (checkJsonPathEquals lib body (AssertionCreate.jsonPathEquals path expected).config) =
        (AssertionCreate.jsonPathEquals path expected).holds lib result ↔
      ¬ (AssertionCreate.jsonPathEquals path expected).Misread lib result := by
  rcases documentOf_cases h with hdoc | ⟨hdoc, rfl⟩
  · by_cases hnull : body = .null
    · subst hnull
      have hlets : lets (checkJsonPathEquals lib .null
          (AssertionCreate.jsonPathEquals path expected).config) = false := rfl
      rw [hlets, eq_comm, ← Bool.not_eq_true]
      refine not_congr ?_
      simp [AssertionCreate.holds, AssertionCreate.Misread, hdoc, Option.any_eq_true]
    · rw [lets_checkJsonPathEquals hexpected hnull]
      rcases hfirst : firstAt lib path body with _ | found
      · simp [AssertionCreate.holds, AssertionCreate.Misread, hdoc, hfirst]
      · have hsame : found.confused expected → found.same expected = false := Json.same_of_confused hexpected
        rw [Option.any_some, Json.pyEq_scalar hexpected]
        by_cases hc : found.confused expected
        · simp [AssertionCreate.holds, AssertionCreate.Misread, hdoc, hfirst, hnull, hc, hsame hc]
        · simp [AssertionCreate.holds, AssertionCreate.Misread, hdoc, hfirst, hnull, hc]
  · have hlets : lets (checkJsonPathEquals lib .null
        (AssertionCreate.jsonPathEquals path expected).config) = false := rfl
    simp [hlets, AssertionCreate.holds, AssertionCreate.Misread, hdoc]

theorem jsonPathExists_iff (h : tryParseJson lib result.responseBody = .ok body) {path : String} :
    lets (checkJsonPathExists lib body (AssertionCreate.jsonPathExists path).config) =
        (AssertionCreate.jsonPathExists path).holds lib result ↔
      ¬ (AssertionCreate.jsonPathExists path).Misread lib result := by
  rcases documentOf_cases h with hdoc | ⟨hdoc, rfl⟩
  · by_cases hnull : body = .null
    · subst hnull
      have hlets : lets (checkJsonPathExists lib .null
          (AssertionCreate.jsonPathExists path).config) = false := rfl
      simp [hlets, AssertionCreate.holds, AssertionCreate.Misread, hdoc]
    · rw [lets_checkJsonPathExists hnull]
      simp [AssertionCreate.holds, AssertionCreate.Misread, hdoc, hnull]
  · have hlets : lets (checkJsonPathExists lib .null
        (AssertionCreate.jsonPathExists path).config) = false := rfl
    simp [hlets, AssertionCreate.holds, AssertionCreate.Misread, hdoc]

theorem holds_headerEquals {header expected : String} :
    (AssertionCreate.headerEquals header expected).holds lib result = true ↔
      ∃ p ∈ result.headers, lib.lower p.1 = lib.lower header ∧ p.2 = expected := by
  simp only [AssertionCreate.holds, List.any_eq_true, decide_eq_true_eq]

theorem headerEquals_iff {header expected : String} :
    lets (checkHeaderEquals lib result (AssertionCreate.headerEquals header expected).config) =
        (AssertionCreate.headerEquals header expected).holds lib result ↔
      ¬ (AssertionCreate.headerEquals header expected).Misread lib result := by
  rw [lets_checkHeaderEquals]
  rcases hfind : result.headers.find? (fun p => lib.lower p.1 = lib.lower header) with _ | q
  · have hno : ∀ p ∈ result.headers, lib.lower p.1 ≠ lib.lower header := by
      simpa using List.find?_eq_none.1 hfind
    refine iff_of_true ?_ ?_
    · rw [hfind, Option.any_none, eq_comm, ← Bool.not_eq_true, holds_headerEquals]
      rintro ⟨p, hp, hname, -⟩
      exact hno p hp hname
    · rintro ⟨p, hp, hname, -⟩
      exact hno p hp hname
  · rw [hfind, Option.any_some]
    by_cases hq : q.2 = expected
    · have hname : lib.lower q.1 = lib.lower header := by simpa using List.find?_some hfind
      refine iff_of_true ?_ ?_
      · rw [decide_eq_true hq, eq_comm, holds_headerEquals]
        exact ⟨q, List.mem_of_find?_eq_some hfind, hname, hq⟩
      · rintro ⟨p, -, -, -, q', hfind', hne⟩
        rw [hfind] at hfind'
        cases hfind'
        exact hne hq
    · rw [decide_eq_false hq, eq_comm, ← Bool.not_eq_true, holds_headerEquals]
      refine not_congr ⟨?_, ?_⟩
      · rintro ⟨p, hp, hname, hvalue⟩
        exact ⟨p, hp, hname, hvalue, q, hfind, hq⟩
      · rintro ⟨p, hp, hname, hvalue, -⟩
        exact ⟨p, hp, hname, hvalue⟩

theorem fst_verdict (checked : Except Exn (Bool × PyStr)) :
    (match checked with
      | .ok verdict => verdict
      | .error e => (false, PyStr.ofString "Assertion raised an error: " ++ PyStr.ofString e.message)).1 =
      lets checked := by
  cases checked <;> rfl

/-- The verdict on one assertion is what it says, unless it is one that is read wrong. -/
theorem passed_eq_holds_iff (a : AcceptedAssertion) (h : tryParseJson lib result.responseBody = .ok body) :
    (evaluateOne lib a.row result body).passed = a.create.holds lib result ↔ ¬ a.create.Misread lib result := by
  obtain ⟨id, apiRequestId, create, createdAt, haccepted⟩ := a
  cases create with
  | statusCodeEquals expected =>
    have hlets := fst_verdict (checkStatusCodeEquals lib result
      (AssertionCreate.statusCodeEquals expected).config)
    exact iff_of_true (hlets.trans (lets_checkStatusCodeEquals haccepted)) fun h => h
  | jsonPathEquals path expected =>
    exact (Eq.congr_left (fst_verdict _)).trans (jsonPathEquals_iff h (Bool.and_eq_true_iff.1 haccepted).2)
  | jsonPathExists path => exact (Eq.congr_left (fst_verdict _)).trans (jsonPathExists_iff h)
  | responseTimeBelow maxMs =>
    have hlets := fst_verdict (checkResponseTimeBelow lib result
      (AssertionCreate.responseTimeBelow maxMs).config)
    exact iff_of_true (hlets.trans (lets_checkResponseTimeBelow haccepted)) fun h => h
  | headerEquals header expected => exact (Eq.congr_left (fst_verdict _)).trans headerEquals_iff

/-! All assertions of a request. -/

theorem parsed_iff (text : Option PyStr) :
    (∃ body, tryParseJson lib text = .ok body) ↔ ∀ t, text = some t → ∃ body, ReadAs lib t body := by
  cases text with
  | none => exact iff_of_true ⟨.null, rfl⟩ fun _ h => by cases h
  | some t => simp only [Option.some.injEq, forall_eq', tryParseJson_eq_ok_iff]

theorem evaluateAssertions_of_parsed (h : tryParseJson lib result.responseBody = .ok body)
    (assertions : List Assertion) :
    evaluateAssertions lib assertions result = .ok (assertions.map (evaluateOne lib · result body)) := by
  rw [evaluateAssertions, h]
  rfl

end

/-- One outcome for each assertion, in order: it is the outcome of its assertion, the same as
if that was the only one, and passed just where the assertion holds. -/
def VerdictsMean (lib : Libraries) (assertions : List AcceptedAssertion) (result : ExecutionResult) : Prop :=
  ∃ outcomes, evaluateAssertions lib (assertions.map AcceptedAssertion.row) result = .ok outcomes ∧
    List.Forall₂ (fun a o => o.assertionId = a.id ∧ o.assertionType = a.create.type.toValue ∧
      evaluateAssertions lib [a.row] result = .ok [o] ∧ o.passed = a.create.holds lib result) assertions outcomes

/-- The verdicts are right just when the body can be read or is refused as JSON, and no
assertion is one that is read wrong. -/
theorem verdicts_mean_iff (lib : Libraries) (assertions : List AcceptedAssertion) (result : ExecutionResult) :
    VerdictsMean lib assertions result ↔
      (∀ text, result.responseBody = some text → ∃ body, ReadAs lib text body) ∧
        ∀ a ∈ assertions, ¬ a.create.Misread lib result := by
  rw [← parsed_iff]
  constructor
  · rintro ⟨outcomes, heval, hmean⟩
    rcases hbody : tryParseJson lib result.responseBody with e | body
    · rw [evaluateAssertions, hbody] at heval
      cases heval
    · refine ⟨⟨body, rfl⟩, fun a ha => ?_⟩
      rw [evaluateAssertions_of_parsed hbody] at heval
      cases heval
      rw [List.forall₂_map_right_iff, List.forall₂_map_right_iff, List.forall₂_same] at hmean
      exact (passed_eq_holds_iff a hbody).1 (hmean a ha).2.2.2
  · rintro ⟨⟨body, hbody⟩, hplain⟩
    refine ⟨_, evaluateAssertions_of_parsed hbody _, ?_⟩
    rw [List.forall₂_map_right_iff, List.forall₂_map_right_iff, List.forall₂_same]
    intro a ha
    exact ⟨rfl, rfl, evaluateAssertions_of_parsed hbody _, (passed_eq_holds_iff a hbody).2 (hplain a ha)⟩

/-- The bodies `true` and `null`, and paths that are the whole document. -/
def rootPaths : Libraries :=
  { plainLibraries with
    jsonLoads := fun text =>
      if text = "true" then .ok (.bool true)
      else if text = "null" then .ok .null
      else plainLibraries.jsonLoads text
    jsonPathFind := fun path document => if path = "$" then .ok [document] else .ok [] }

def rootEqualsOne : AcceptedAssertion := ⟨0, 0, .jsonPathEquals "$" (.int 1), 0, rfl⟩

def rootExists : AcceptedAssertion := ⟨1, 0, .jsonPathExists "$", 0, rfl⟩

/-- The boolean `true` passes for the number 1, and the document `null` has no root. -/
theorem not_verdicts_mean_true :
    ¬ VerdictsMean rootPaths [rootEqualsOne] (responseResult 200 .empty "true" 5) ∧
      ¬ VerdictsMean rootPaths [rootExists] (responseResult 200 .empty "null" 5) := by
  constructor
  · rintro ⟨outcomes, heval, hmean⟩
    cases heval
    obtain ⟨⟨-, -, -, hpassed⟩, -⟩ := List.forall₂_cons.1 hmean
    exact absurd hpassed (by decide)
  · rintro ⟨outcomes, heval, hmean⟩
    cases heval
    obtain ⟨⟨-, -, -, hpassed⟩, -⟩ := List.forall₂_cons.1 hmean
    exact absurd hpassed (by decide)

end ApiTesting
