import ApiTesting.Lib.Keyed
import Mathlib.Algebra.Group.Nat.Defs
import Mathlib.Data.Rat.Defs

/-! What the platform takes from its host: the strings of the interpreter, JSON values
with its equality, `str` and `repr`, the exceptions a handler can tell apart, the
library calls whose code is elsewhere, and calls to Redis and Postgres, which
may raise with or without having taken effect. -/

namespace ApiTesting

open Keyed

/-- Every id is a fresh, time-ordered UUID; only equality and order are used. -/
abbrev UUID := ℕ

/-- Instants and durations, in microseconds. -/
abbrev Timestamp := ℕ

/-- Redis keeps time to the millisecond where it expires keys. -/
def milliseconds (t : Timestamp) : ℕ := t / 1000

/-- The millisecond in which a key expires that is to live for so many seconds. -/
def expiry (now : Timestamp) (ttlSeconds : ℕ) : ℕ := milliseconds now + ttlSeconds * 1000

/-- A key is there until the millisecond of its expiry is over. -/
def unexpired (now : Timestamp) (expiresAt : Option ℕ) : Bool := expiresAt.all fun t => milliseconds now ≤ t

/-- A character of `str`: a Unicode scalar value, or a surrogate that stands alone. -/
inductive PyChar
  | scalar (c : Char)
  | surrogate (n : Fin 2048)
deriving DecidableEq

/-- `str`. Text that has come through UTF-8 has no lone surrogate and is a `String`. -/
abbrev PyStr := List PyChar

namespace PyChar

def scalar? : PyChar → Option Char
  | .scalar c => some c
  | .surrogate _ => none

end PyChar

namespace PyStr

def ofString (s : String) : PyStr := s.toList.map .scalar

instance : Coe String PyStr := ⟨ofString⟩

/-- `str.encode()`: a lone surrogate has no UTF-8. -/
def encode? (s : PyStr) : Option String :=
  if s.all fun c => c.scalar?.isSome then some (String.ofList (s.filterMap PyChar.scalar?)) else none

@[simp] theorem ofString_append (s t : String) : ofString (s ++ t) = ofString s ++ ofString t := by
  simp [ofString]

@[simp] theorem ofString_inj {s t : String} : ofString s = ofString t ↔ s = t := by
  rw [ofString, ofString, List.map_inj_right fun _ _ h => PyChar.scalar.inj h, String.toList_inj]

@[simp] theorem ofString_eq_nil {s : String} : ofString s = [] ↔ s = "" := by
  rw [ofString, List.map_eq_nil_iff, String.toList_eq_nil_iff]

@[simp] theorem encode?_ofString (s : String) : encode? (ofString s) = some s := by
  simp [encode?, ofString, PyChar.scalar?, Function.comp_def]

end PyStr

/-- `sys.float_info.max_exp` -/
def floatMaxExp : ℕ := 1024

@[irreducible] def InFloatRange (q : ℚ) : Prop := q.num.natAbs < 2 ^ floatMaxExp * q.den

inductive PyFloat
  | finite (q : ℚ) (inRange : InFloatRange q)
  | negZero
  | inf (negative : Bool)
  | nan
deriving DecidableEq

/-- A decoded JSON value; `null` is the interpreter's `None`. -/
inductive Json
  | null
  | bool (b : Bool)
  | int (i : ℤ)
  | float (x : PyFloat)
  | str (s : PyStr)
  | arr (xs : List Json)
  | obj (ps : List (PyStr × Json))

/-- Exception classes some handler of the program names, and the rest. The
application errors are those of `app.core.exceptions`. -/
inductive AppError
  | organizationNotFound
  | insufficientPermissions
  | userNotFound
  | alreadyMember
  | membershipNotFound
  | cannotRemoveLastOwner
  | slugAlreadyTaken
  | projectNotFound
  | collectionNotFound
  | apiRequestNotFound
  | assertionNotFound
  | environmentVariableNotFound
  | environmentVariableKeyTaken
  | scheduleNotFound
  | collectionHasNoRequests
  | testRunNotFound
  | testTaskNotFound
deriving DecidableEq

/-- The `detail` of an application error. -/
def AppError.detail : AppError → String
  | .organizationNotFound => "Organization not found."
  | .insufficientPermissions => "You do not have permission to perform this action."
  | .userNotFound => "No user was found with that email address."
  | .alreadyMember => "This user is already a member of the organization."
  | .membershipNotFound => "This user is not a member of the organization."
  | .cannotRemoveLastOwner => "An organization must have at least one owner."
  | .slugAlreadyTaken => "This slug is already in use."
  | .projectNotFound => "Project not found."
  | .collectionNotFound => "Collection not found."
  | .apiRequestNotFound => "API request not found."
  | .assertionNotFound => "Assertion not found."
  | .environmentVariableNotFound => "Environment variable not found."
  | .environmentVariableKeyTaken => "This key is already defined for this project."
  | .scheduleNotFound => "Schedule not found."
  | .collectionHasNoRequests => "This collection has no API requests to run."
  | .testRunNotFound => "Test run not found."
  | .testTaskNotFound => "Test task not found."

inductive ExnClass
  | undefinedVariable
  | extraction
  | taskProcessing
  | rateLimited
  | jsonDecode
  | type
  | value
  | key
  | attribute
  | recursion
  | pyJwt
  | jsonPath
  | integrity
  | app (e : AppError)
  | other (name : String)
deriving DecidableEq

structure Exn where
  cls : ExnClass
  message : String
deriving DecidableEq

def AppError.toExn (e : AppError) : Exn := ⟨.app e, e.detail⟩

def staleDataError : Exn := ⟨.other "StaleDataError", "expected to update 1 row(s); 0 were matched."⟩

/-- Classes the program defines itself. -/
def ExnClass.ofProgram : ExnClass → Bool
  | .undefinedVariable => true
  | .extraction => true
  | .taskProcessing => true
  | .rateLimited => true
  | .app _ => true
  | _ => false

/-- What library code raises is of no class the program defines. -/
abbrev LibraryExn := { e : Exn // e.cls.ofProgram = false }

/-- The outcome of a call to Redis or Postgres. -/
inductive Call
  | ok
  | raisedBefore
  | raisedAfter
deriving DecidableEq

def Call.tookEffect : Call → Bool
  | .ok => true
  | .raisedBefore => false
  | .raisedAfter => true

def Call.returned : Call → Bool
  | .ok => true
  | .raisedBefore => false
  | .raisedAfter => false

/-- A connection error of the client library, as the caller sees it. -/
def callError : Exn := ⟨.other "ConnectionError", "connection lost"⟩

/-- Library code the program calls. -/
structure Libraries where
  /-- `json.loads` -/
  jsonLoads : PyStr → Except LibraryExn Json
  /-- `jsonpath_ng.ext.parse(path).find(document)`, the values matched in order -/
  jsonPathFind : PyStr → Json → Except LibraryExn (List Json)
  /-- `jwt.decode(token, options={"verify_signature": False})` -/
  jwtDecode : PyStr → Except LibraryExn (Dict PyStr Json)
  /-- `urlparse(url).hostname` -/
  urlHostname : String → Except LibraryExn (Option String)
  /-- `str.lower` -/
  lower : String → String
  /-- `str.isprintable` of one character outside ASCII -/
  isPrintable : Char → Bool
  /-- `repr` of a float -/
  floatRepr : PyFloat → String
  /-- `croniter(expression, now).get_next`, with `now` in the time zone of that name -/
  cronNext : String → String → Timestamp → Except LibraryExn Timestamp

namespace Json

/-- The value a number has for `==` and `<`; a boolean counts as 0 or 1. -/
def numeric? : Json → Option ℚ
  | .bool b => some (if b then 1 else 0)
  | .int i => some i
  | .float (.finite q _) => some q
  | .float .negZero => some 0
  | _ => none

mutual

/-- `==` of the interpreter. -/
def pyEq : Json → Json → Bool
  | .null, .null => true
  | .str s, .str t => s == t
  | .arr xs, .arr ys => pyEqList xs ys
  | .obj ps, .obj qs => ps.length == qs.length && pyEqFields ps qs
  | .float (.inf s), .float (.inf t) => s == t
  | a, b =>
    match numeric? a, numeric? b with
    | some x, some y => decide (x = y)
    | _, _ => false

def pyEqList : List Json → List Json → Bool
  | [], [] => true
  | x :: xs, y :: ys => pyEq x y && pyEqList xs ys
  | _, _ => false

def pyEqFields : List (PyStr × Json) → List (PyStr × Json) → Bool
  | [], _ => true
  | (k, v) :: ps, qs =>
    (match qs.lookup k with
      | some w => pyEq v w
      | none => false) && pyEqFields ps qs

end

end Json

def hexDigit (n : ℕ) : Char := "0123456789abcdef".toList.getD n '0'

def hex (width n : ℕ) : List Char :=
  (List.range width).reverse.map fun i => hexDigit (n / 16 ^ i % 16)

/-- `str.isspace` of one character. -/
def pySpace (c : Char) : Bool :=
  let n := c.toNat
  (0x9 ≤ n && n ≤ 0xd) || (0x1c ≤ n && n ≤ 0x20) || n == 0x85 || n == 0xa0 || n == 0x1680 ||
    (0x2000 ≤ n && n ≤ 0x200a) || n == 0x2028 || n == 0x2029 || n == 0x202f || n == 0x205f || n == 0x3000

/-- `str.strip()` -/
def pyStrip (s : String) : String :=
  String.ofList ((s.toList.dropWhile pySpace).reverse.dropWhile pySpace).reverse

section
variable (lib : Libraries)

/-- One character of `repr` of a string quoted with `quote`. -/
def reprScalar (quote c : Char) : List Char :=
  if c = quote ∨ c = '\\' then ['\\', c]
  else if c = '\t' then ['\\', 't']
  else if c = '\n' then ['\\', 'n']
  else if c = '\r' then ['\\', 'r']
  else if c.toNat < 0x20 ∨ c.toNat = 0x7f then ['\\', 'x'] ++ hex 2 c.toNat
  else if c.toNat < 0x7f ∨ lib.isPrintable c then [c]
  else if c.toNat ≤ 0xff then ['\\', 'x'] ++ hex 2 c.toNat
  else if c.toNat ≤ 0xffff then ['\\', 'u'] ++ hex 4 c.toNat
  else ['\\', 'U'] ++ hex 8 c.toNat

/-- A lone surrogate is not printable. -/
def reprChar (quote : Char) : PyChar → List Char
  | .scalar c => reprScalar lib quote c
  | .surrogate n => ['\\', 'u'] ++ hex 4 (0xd800 + n)

/-- `repr` of a string: double quotes only where it has a single quote and no double one. -/
def reprStr (s : PyStr) : String :=
  let quote := if s.contains (.scalar '\'') && !s.contains (.scalar '"') then '"' else '\''
  String.ofList ([quote] ++ s.flatMap (reprChar lib quote) ++ [quote])

/-- The digits an integer may have to be written in decimal. -/
def intMaxStrDigits : ℕ := 4300

def tooManyDigits : LibraryExn :=
  ⟨⟨.value, "Exceeds the limit (4300 digits) for integer string conversion; " ++
    "use sys.set_int_max_str_digits() to increase the limit"⟩, rfl⟩

/-- `repr` of an integer. -/
def reprInt (i : ℤ) : Except LibraryExn String :=
  if (Nat.toDigits 10 i.natAbs).length ≤ intMaxStrDigits then .ok (toString i) else .error tooManyDigits

namespace Json

mutual

/-- `repr` of a decoded JSON value. -/
def repr : Json → Except LibraryExn String
  | .null => .ok "None"
  | .bool b => .ok (if b then "True" else "False")
  | .int i => reprInt i
  | .float x => .ok (lib.floatRepr x)
  | .str s => .ok (reprStr lib s)
  | .arr xs => do
    let items ← reprList xs
    return "[" ++ String.intercalate ", " items ++ "]"
  | .obj ps => do
    let items ← reprFields ps
    return "\x7b" ++ String.intercalate ", " items ++ "\x7d"

def reprList : List Json → Except LibraryExn (List String)
  | [] => .ok []
  | x :: xs => do
    let item ← repr x
    let items ← reprList xs
    return item :: items

def reprFields : List (PyStr × Json) → Except LibraryExn (List String)
  | [] => .ok []
  | (k, v) :: ps => do
    let value ← repr v
    let items ← reprFields ps
    return (reprStr lib k ++ ": " ++ value) :: items

end

/-- `str`: a string is itself, everything else its `repr`. -/
def pyStr : Json → Except LibraryExn PyStr
  | .str s => .ok s
  | x => (repr lib x).map PyStr.ofString

end Json

end

end ApiTesting
