import ApiTesting.Spec.Host

/-! `worker.template_resolver`: the placeholders of a request template. The
pattern is matched character by character; after the two opening braces, blanks,
a maximal name and blanks there is only one way on, so no backtracking is lost. -/

namespace ApiTesting

open Keyed

/-- `\s` of a text pattern. -/
def isSpace (c : Char) : Bool :=
  let n := c.toNat
  (0x09 ≤ n && n ≤ 0x0d) || (0x1c ≤ n && n ≤ 0x20) || n = 0x85 || n = 0xa0 || n = 0x1680 ||
    (0x2000 ≤ n && n ≤ 0x200a) || n = 0x2028 || n = 0x2029 || n = 0x202f || n = 0x205f || n = 0x3000

/-- `[A-Za-z_]`. -/
def isNameStart (c : Char) : Bool :=
  let n := c.toNat
  (0x41 ≤ n && n ≤ 0x5a) || (0x61 ≤ n && n ≤ 0x7a) || n = 0x5f

/-- `[A-Za-z0-9_]`. -/
def isNameChar (c : Char) : Bool :=
  isNameStart c || (0x30 ≤ c.toNat && c.toNat ≤ 0x39)

/-- A match of `_PLACEHOLDER_PATTERN` at the head of the text: the name and the
length of the match. -/
def matchPlaceholder (text : List Char) : Option (List Char × ℕ) :=
  match text with
  | '{' :: '{' :: rest =>
    let afterBlank := rest.dropWhile isSpace
    match afterBlank with
    | c :: _ =>
      if isNameStart c then
        let name := afterBlank.takeWhile isNameChar
        match (afterBlank.dropWhile isNameChar).dropWhile isSpace with
        | '}' :: '}' :: tail => some (name, text.length - tail.length)
        | _ => none
      else none
    | [] => none
  | _ => none

def undefinedVariableError (name : String) : Exn :=
  ⟨.undefinedVariable, "Undefined variable: " ++ name⟩

section
variable (chainContext environmentVariables : Dict String String)

/-- `_replace`: the chain context comes first. -/
def replaceName (name : String) : Except Exn String :=
  match chainContext.lookup name with
  | some v => .ok v
  | none =>
    match environmentVariables.lookup name with
    | some v => .ok v
    | none => .error (undefinedVariableError name)

/-- `re.sub` over the text, with `skip` characters of the last match still ahead. -/
def substitute : ℕ → List Char → Except Exn (List Char)
  | _, [] => .ok []
  | skip + 1, _ :: cs => substitute skip cs
  | 0, c :: cs =>
    match matchPlaceholder (c :: cs) with
    | some (name, len) => do
      let value ← replaceName chainContext environmentVariables (String.ofList name)
      let rest ← substitute (len - 1) cs
      return value.toList ++ rest
    | none => do
      let rest ← substitute 0 cs
      return c :: rest

def resolveTemplate (template : String) : Except Exn String := do
  let text ← substitute chainContext environmentVariables 0 template.toList
  return String.ofList text

/-- The values resolved in order, the keys as they are. -/
def resolveMapping (mapping : Dict String String) : Except Exn (Dict String String) :=
  mapping.rows.foldlM
    (fun resolved p => do
      let value ← resolveTemplate chainContext environmentVariables p.2
      return resolved.put p.1 value)
    .empty

end

end ApiTesting
