import ApiTesting.Lib.Machine
import ApiTesting.Spec.Rows

/-! `app.services.auth_service`, `app.core.security`, `dependencies.get_current_user`: accounts,
passwords and access tokens, as requests that interleave. A registration reads and writes in two
statements and commits in a third; the unique index on `email` is what holds between them. -/

namespace ApiTesting

open Keyed

/-- A row of `users`. -/
structure Account where
  id : UUID
  email : String
  hashedPassword : String
  fullName : String
  isActive : Bool
deriving DecidableEq

/-- `verification` is argon2's `VerificationError`, which no handler of the service names. -/
inductive AuthError
  | emailAlreadyRegistered
  | invalidCredentials
  | inactiveUser
  | invalidToken
  | verification
deriving DecidableEq

def AuthError.statusCode : AuthError → ℕ
  | .emailAlreadyRegistered => 409
  | .invalidCredentials => 401
  | .inactiveUser => 403
  | .invalidToken => 401
  | .verification => 500

def AuthError.detail : AuthError → String
  | .emailAlreadyRegistered => "An account with this email already exists."
  | .invalidCredentials => "Incorrect email or password."
  | .inactiveUser => "This account has been deactivated."
  | .invalidToken => "Could not validate credentials."
  | .verification => "Internal Server Error"

/-- The claims of an access token; `sub` is missing where the decoded payload has none. -/
structure TokenPayload where
  sub : Option String
  iat : ℕ
  exp : ℕ
  jti : String
deriving DecidableEq

/-- How `PasswordHasher.verify` ends. -/
inductive Verification
  | verified
  | verifyMismatch
  | invalidHash
  | verificationError
deriving DecidableEq

/-- The calls of the account code whose own code is elsewhere, and the setting it reads. -/
structure AuthLibraries where
  accessTokenExpireMinutes : ℕ
  /-- `PasswordHasher.hash`, with the salt it draws -/
  hash : String → ℕ → String
  /-- the salt of `_DUMMY_HASH`, drawn at import -/
  dummySalt : ℕ
  verify : String → String → Verification
  /-- `jwt.encode` with the key and algorithm of the settings -/
  encode : TokenPayload → String
  /-- `jwt.decode` at a time, `none` where it raises a `PyJWTError` -/
  decode : String → Timestamp → Option TokenPayload
  /-- `str(uuid)` and `UUID(text)`, `none` where it raises a `ValueError` -/
  uuidText : UUID → String
  uuidOfText : String → Option UUID

section
variable (lib : Libraries) (auth : AuthLibraries)

def verifyPassword (password hashedPassword : String) : Except AuthError Bool :=
  match auth.verify hashedPassword password with
  | .verified => .ok true
  | .verifyMismatch => .ok false
  | .invalidHash => .ok false
  | .verificationError => .error .verification

/-- `_DUMMY_HASH` -/
def dummyHash : String := auth.hash "a-placeholder-password-used-only-for-timing-safety" auth.dummySalt

/-- PyJWT writes times as whole seconds. -/
def timegm (t : Timestamp) : ℕ := t / 1000000

def accessTokenPayload (subject : UUID) (now : Timestamp) (jti : UUID) : TokenPayload where
  sub := some (auth.uuidText subject)
  iat := timegm now
  exp := timegm (now + auth.accessTokenExpireMinutes * 60 * 1000000)
  jti := auth.uuidText jti

def createAccessToken (subject : UUID) (now : Timestamp) (jti : UUID) : String :=
  auth.encode (accessTokenPayload auth subject now jti)

def decodeAccessToken (token : String) (now : Timestamp) : Except AuthError TokenPayload :=
  match auth.decode token now with
  | some payload => .ok payload
  | none => .error .invalidToken

/-- `email.strip().lower()` -/
def normalizedEmail (email : String) : String := lib.lower (pyStrip email)

abbrev AccountTable := Table Account.id

def AccountTable.getByEmail (users : AccountTable) (email : String) : Option Account :=
  users.rows.find? fun u => u.email = email

/-- The verification of `_DUMMY_HASH` costs time, and may raise as the other one may. -/
def authenticate (users : AccountTable) (email password : String) : Except AuthError Account := do
  match users.getByEmail (normalizedEmail lib email) with
  | none =>
    let _ ← verifyPassword auth password (dummyHash auth)
    .error .invalidCredentials
  | some user =>
    let verified ← verifyPassword auth password user.hashedPassword
    if !verified then .error .invalidCredentials
    else if !user.isActive then .error .inactiveUser
    else .ok user

def getCurrentUser (users : AccountTable) (token : String) (now : Timestamp) : Except AuthError Account :=
  match decodeAccessToken auth token now with
  | .error e => .error e
  | .ok payload =>
    match payload.sub with
    | none => .error .invalidToken
    | some rawUserId =>
      match auth.uuidOfText rawUserId with
      | none => .error .invalidToken
      | some userId =>
        match users.get? userId with
        | none => .error .invalidToken
        | some user => if !user.isActive then .error .inactiveUser else .ok user

end

structure UserRegister where
  email : String
  password : String
  fullName : String

/-- Where a registration is. `flushed` holds the unique index until the transaction ends. -/
inductive RegisterPhase
  | received
  | checked
  | flushed (user : Account)
  | created (user : Account)
  | rejected (e : AuthError)
  | failed
deriving DecidableEq

/-- Its transaction is not over yet. -/
def RegisterPhase.isOpen : RegisterPhase → Bool
  | .received => true
  | .checked => true
  | .flushed _ => true
  | _ => false

structure RegisterRequest where
  payload : UserRegister
  phase : RegisterPhase

/-- A token that a login has returned. -/
structure IssuedToken where
  token : String
  username : String
  password : String
  user : Account
  at_ : Timestamp

/-- Whom a request was taken to be from, and when. -/
structure Recognition where
  token : String
  user : Account
  at_ : Timestamp

/-- `issued` and `recognized` are histories, of `/auth/login` and of `get_current_user`. -/
structure Accounts where
  clock : Timestamp
  users : AccountTable
  nextId : UUID
  registrations : List RegisterRequest
  issued : List IssuedToken
  recognized : List Recognition

inductive RegistrationAction
  | check
  | create (salt : ℕ)
  | commit (call : Call)
  | fail

inductive AccountAction
  | tick (d : Timestamp)
  | register (payload : UserRegister)
  | registration (i : ℕ) (a : RegistrationAction)
  | login (username password : String) (jti : UUID)
  | currentUser (token : String)

/-- A transaction that has inserted the address and is still open. -/
def RegisterRequest.holds (email : String) (r : RegisterRequest) : Bool :=
  match r.phase with
  | .flushed user => user.email = email
  | _ => false

structure RegistrationEffect where
  phase : RegisterPhase
  users : AccountTable
  nextId : UUID

section
variable (lib : Libraries) (auth : AuthLibraries)

/-- The row `register` inserts. -/
def UserRegister.account (payload : UserRegister) (id : UUID) (salt : ℕ) : Account where
  id := id
  email := normalizedEmail lib payload.email
  hashedPassword := auth.hash payload.password salt
  fullName := pyStrip payload.fullName
  isActive := true

/-- `register`, statement by statement. An INSERT waits for an open transaction that has the
address; an address that is taken by then is an IntegrityError. -/
def registrationStep (s : Accounts) (r : RegisterRequest) (a : RegistrationAction) : Option RegistrationEffect :=
  let email := normalizedEmail lib r.payload.email
  match a, r.phase with
  | .check, .received =>
    some ⟨if (s.users.getByEmail email).isSome then .rejected .emailAlreadyRegistered else .checked, s.users, s.nextId⟩
  | .create salt, .checked =>
    if s.registrations.any (RegisterRequest.holds email) then none
    else
      some
        ⟨if (s.users.getByEmail email).isSome then .rejected .emailAlreadyRegistered
          else .flushed (r.payload.account lib auth s.nextId salt), s.users, s.nextId + 1⟩
  | .commit call, .flushed user =>
    some
      ⟨if call.returned then .created user else .failed,
        if call.tookEffect then s.users.set user else s.users, s.nextId⟩
  | .fail, phase => if phase.isOpen then some ⟨.failed, s.users, s.nextId⟩ else none
  | _, _ => none

def accountStep (s : Accounts) : AccountAction → Option Accounts
  | .tick d => some { s with clock := s.clock + d }
  | .register payload => some { s with registrations := s.registrations ++ [⟨payload, .received⟩] }
  | .registration i a =>
    match s.registrations[i]? with
    | some r =>
      (registrationStep lib auth s r a).map fun e =>
        { s with
          users := e.users
          nextId := e.nextId
          registrations := s.registrations.set i { r with phase := e.phase } }
    | none => none
  | .login username password jti =>
    match authenticate lib auth s.users username password with
    | .ok user =>
      let token := createAccessToken auth user.id s.clock jti
      some { s with issued := s.issued ++ [⟨token, username, password, user, s.clock⟩] }
    | .error _ => some s
  | .currentUser token =>
    match getCurrentUser auth s.users token s.clock with
    | .ok user => some { s with recognized := s.recognized ++ [⟨token, user, s.clock⟩] }
    | .error _ => some s

end

/-- Nobody has an account. -/
def Accounts.empty : Accounts where
  clock := 0
  users := .empty
  nextId := 0
  registrations := []
  issued := []
  recognized := []

end ApiTesting
