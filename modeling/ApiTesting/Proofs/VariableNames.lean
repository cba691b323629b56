import ApiTesting.Proofs.Substitution
import ApiTesting.Proofs.Launch
import ApiTesting.Spec.Schemas

/-! The names the platform lets a user define, and the names a placeholder can
reach. Keys of environment variables and the names of extraction rules follow the
pattern of a placeholder; the keys of a data row need not. -/

namespace ApiTesting

open Keyed Scan

/-- The ways a variable gets defined. -/
inductive Route
  | environmentVariable
  | extractRule
  | dataRow
deriving DecidableEq

def ExtractRule.saveAs : ExtractRule → Option String
  | .jsonPath _ saveAs => some saveAs
  | .jwtClaim _ _ saveAs => some saveAs
  | .other _ => none

namespace Route

/-- The API accepts the name for a variable defined this way. -/
def Admits (name : String) : Route → Prop
  | .environmentVariable => environmentVariableCreateKey name ∨ environmentVariableUpdateKey name
  | .extractRule => ∃ rule : ExtractRule, rule.accepted ∧ rule.saveAs = some name
  | .dataRow => ∃ rows : List (Dict String String), validateDataRows (some rows) ∧ ∃ row ∈ rows, name ∈ row.keys

/-- The attempt finds the name with this value, and nothing that goes before this
way defines it as well. -/
def Defines (v : TaskView) (now : Timestamp) (contexts : RunContext) (name value : String) : Route → Prop
  | .environmentVariable =>
    v.testRun.environmentVariables.lookup name = some value ∧ (v.chainContext now contexts).lookup name = none
  | .extractRule =>
    (contexts.getAll now v.testRun.id v.testTask.dataRowIndex).lookup name = some value ∧
      ∀ row, v.testTask.dataContext = some row → row.lookup name = none
  | .dataRow => ∃ row, v.testTask.dataContext = some row ∧ row.lookup name = some value

end Route

theorem variableNamePattern_eq (name : String) : variableNamePattern name = isName name.toList := by
  unfold variableNamePattern isName
  cases name.toList with
  | nil => rfl
  | cons c cs => rfl

/-- The first two ways admit placeholder names only. -/
theorem pattern_of_admits {route : Route} {name : String} (h : route.Admits name) (hr : route ≠ .dataRow) :
    variableNamePattern name := by
  cases route with
  | environmentVariable =>
    rcases h with h | h
    · exact (Bool.and_eq_true_iff.1 h).2
    · exact (Bool.and_eq_true_iff.1 h).2
  | extractRule =>
    obtain ⟨rule, haccepted, hsave⟩ := h
    cases rule with
    | jsonPath path saveAs =>
      obtain rfl := Option.some.inj hsave
      simp only [ExtractRule.accepted, Bool.and_eq_true] at haccepted
      exact haccepted.1.2
    | jwtClaim sourceVar claim saveAs =>
      obtain rfl := Option.some.inj hsave
      simp only [ExtractRule.accepted, Bool.and_eq_true] at haccepted
      exact haccepted.2
    | other type => cases hsave
  | dataRow => exact absurd rfl hr

/-- However it was defined, the name stands for its value. -/
theorem valueOf_of_defines {route : Route} {v : TaskView} {now : Timestamp} {contexts : RunContext}
    {name value : String} (h : route.Defines v now contexts name value) :
    valueOf (v.chainContext now contexts) v.testRun.environmentVariables name = some value := by
  unfold valueOf
  cases route with
  | environmentVariable => rw [h.2, h.1, Option.none_or]
  | extractRule =>
    have hrow : (v.testTask.dataContext.bind fun row => row.lookup name) = none := by
      rcases hd : v.testTask.dataContext with _ | row
      · rfl
      · exact h.2 row hd
    rw [lookup_chainContext, hrow, Option.none_or, h.1, Option.some_or]
  | dataRow =>
    obtain ⟨row, hd, hrow⟩ := h
    rw [lookup_chainContext, hd, Option.bind_some, hrow, Option.some_or, Option.some_or]

/-- `{{name}}` with blanks around the name. -/
def reference (before after : Blank) (name : String) : String :=
  "\x7b\x7b" ++ before.val ++ name ++ after.val ++ "\x7d\x7d"

theorem resolve_reference {chain env : Dict String String} {name value : String} (before after : Blank)
    (hname : variableNamePattern name) (hvalue : valueOf chain env name = some value) :
    resolveTemplate chain env (reference before after name) = .ok value := by
  rw [variableNamePattern_eq] at hname
  have h := resolveTemplate_render chain env [.placeholder before ⟨name, hname⟩ after]
  have hdefined : undefinedName chain env name = none := by rw [undefinedName, hvalue]
  have htext : valueText chain env name = value := by rw [valueText, hvalue, Option.getD_some]
  simpa [render, String.join_cons, Segment.source, reference, leftmostUndefined, Segment.undefined, hdefined,
    filled, Segment.value, htext, unlessUndefined] using h

/-- Where the only name defined is none a placeholder can have, nothing resolves to
the empty text but the empty template. -/
theorem not_resolves_of_not_name {name : String} (hname : variableNamePattern name = false) {template : String}
    (ht : template.toList ≠ []) : resolveTemplate (defining name "") .empty template ≠ .ok "" := by
  intro h
  have htext := eq_of_resolveTemplate h
  rw [resolveTemplate_eq, unlessUndefined_eq_ok_iff] at h
  have hno : ¬ ∃ t ∈ tokens template, t.isPiece := by
    rintro ⟨t, htok, hp⟩
    cases t with
    | element c => cases hp
    | piece found source =>
      obtain ⟨front, back, hscan⟩ := List.append_of_mem htok
      have hm := matcher_of_piece matchPlaceholder_consuming hscan
      obtain ⟨-, -, -, -, hfound, -, -, -⟩ := exists_of_matchPlaceholder hm
      have hne : name ≠ String.ofList found := by
        rintro rfl
        rw [variableNamePattern_eq, String.toList_ofList, hfound] at hname
        cases hname
      have hundef := List.findSome?_eq_none_iff.1 h.1 _ htok
      simp [undefinedToken, undefinedName, valueOf, Dict.lookup, Table.get?, defining, Table.empty, hne] at hundef
  rw [tokens_of_no_piece hno, flatMap_map_element (fun _ => rfl)] at htext
  exact ht htext.symm

/-- A task of a data row with one entry, in a run without environment variables. -/
def rowView (name value : String) : TaskView where
  testTask := { pendingTask 0 0 0 0 3 with dataContext := some (defining name value) }
  apiRequest := plainRequest 0
  testRun := startedRun 0 1

/-- A name that is admitted can be referenced, whatever defines it, just when it is
the name of a placeholder. -/
theorem referenced_iff {route : Route} {name : String} (h : route.Admits name) (before after : Blank) :
    (∀ (v : TaskView) (now : Timestamp) (contexts : RunContext) (value : String),
      route.Defines v now contexts name value →
      resolveTemplate (v.chainContext now contexts) v.testRun.environmentVariables
        (reference before after name) = .ok value) ↔ variableNamePattern name := by
  constructor
  · intro hall
    by_contra hname
    have hr : route = .dataRow := by
      by_contra hr
      exact hname (pattern_of_admits h hr)
    subst hr
    have hchain : (rowView name "").chainContext 0 .empty = defining name "" := by
      apply Table.ext
      rfl
    have henv : (rowView name "").testRun.environmentVariables = .empty := rfl
    have hres := hall (rowView name "") 0 .empty "" ⟨defining name "", rfl, by simp [Dict.lookup, Table.get?, defining]⟩
    rw [hchain, henv] at hres
    exact not_resolves_of_not_name (by simpa using hname) (by simp [reference]) hres
  · intro hname v now contexts value hdef
    exact resolve_reference before after hname (valueOf_of_defines hdef)

def oneBlank : Blank where
  val := " "
  property := by
    intro c hc
    obtain rfl := List.mem_singleton.1 hc
    decide

theorem referenced_token :
    (∀ (v : TaskView) (now : Timestamp) (contexts : RunContext) (value : String),
      Route.extractRule.Defines v now contexts "token" value →
      resolveTemplate (v.chainContext now contexts) v.testRun.environmentVariables
        (reference oneBlank oneBlank "token") = .ok value) ↔ variableNamePattern "token" :=
  have h : Route.extractRule.Admits "token" := ⟨.jsonPath "$.token" "token", by decide, rfl⟩
  referenced_iff h oneBlank oneBlank

/-- A column of a data row with a hyphen in its name: the placeholder goes out as it is. -/
theorem not_referenced_hyphen :
    Route.dataRow.Admits "user-id" ∧ Route.dataRow.Defines (rowView "user-id" "7") 0 .empty "user-id" "7" ∧
      resolveTemplate ((rowView "user-id" "7").chainContext 0 .empty)
        (rowView "user-id" "7").testRun.environmentVariables (reference oneBlank oneBlank "user-id") =
          .ok "\x7b\x7b user-id \x7d\x7d" ∧
      "\x7b\x7b user-id \x7d\x7d" ≠ "7" := by
  refine ⟨⟨[defining "user-id" "7"], by decide, defining "user-id" "7", List.mem_singleton.2 rfl, by decide⟩,
    ⟨defining "user-id" "7", rfl, by rfl⟩, by rfl, by decide⟩

end ApiTesting
