import ApiTesting.Spec.AssertionEngine

/-! `worker.variable_extractor`: the rules of a request run in order over its
response; a later rule sees what an earlier one of the list has saved. -/

namespace ApiTesting

open Keyed

def extractionError (message : String) : Exn := ⟨.extraction, message⟩

section
variable (lib : Libraries)

def extractJsonPath (parsedBody : Json) (path : String) : Except Exn PyStr :=
  match parsedBody with
  | .null => .error (extractionError
      ("Cannot extract '" ++ path ++ "': response body is not valid JSON."))
  | body => do
    match ← (lib.jsonPathFind path body).mapError Subtype.val with
    | [] => .error (extractionError ("Path '" ++ path ++ "' matched nothing in the response."))
    | value :: _ => (value.pyStr lib).mapError Subtype.val

def extractJwtClaim (available : Dict String PyStr) (sourceVar claim : String) :
    Except Exn PyStr :=
  match available.lookup sourceVar with
  | none => .error (extractionError
      ("jwt_claim rule references undefined variable '" ++ sourceVar ++ "'."))
  | some token =>
    match lib.jwtDecode token with
    | .error e =>
      if e.val.cls = .pyJwt then
        .error (extractionError ("'" ++ sourceVar ++ "' is not a decodable JWT: " ++ e.val.message))
      else .error e.val
    | .ok claims =>
      match claims.lookup claim with
      | none => .error (extractionError ("Claim '" ++ claim ++ "' not present in the JWT."))
      | some value => (value.pyStr lib).mapError Subtype.val

/-- One rule: its value goes into what has been extracted and into what is available. -/
def extractRule (parsedBody : Json) (acc : Dict String PyStr × Dict String PyStr)
    (rule : ExtractRule) : Except Exn (Dict String PyStr × Dict String PyStr) := do
  match rule with
  | .jsonPath path saveAs =>
    let value ← extractJsonPath lib parsedBody path
    return (acc.1.put saveAs value, acc.2.put saveAs value)
  | .jwtClaim sourceVar claim saveAs =>
    let value ← extractJwtClaim lib acc.2 sourceVar claim
    return (acc.1.put saveAs value, acc.2.put saveAs value)
  | .other type => .error (extractionError ("Unknown extraction rule type: " ++ type))

def extractVariables (extractRules : List ExtractRule) (result : ExecutionResult)
    (chainContext : Dict String String) : Except Exn (Dict String PyStr) := do
  let parsedBody ← tryParseJson lib result.responseBody
  let available := chainContext.mapValues PyStr.ofString
  let acc ← extractRules.foldlM (extractRule lib parsedBody) (.empty, available)
  return acc.1

end

end ApiTesting
