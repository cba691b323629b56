import ApiTesting.Spec.TestRunService

/-! `app.routers`: what an endpoint makes of a request. Each request is a transaction
of its own, and its response is rendered before the session is committed. -/

namespace ApiTesting

open Keyed ServiceM

/-- A request as it comes in, with what its transaction runs into. -/
structure Incoming (ρ : Type) where
  user : User
  request : ρ
  surroundings : Surroundings

section
variable {ρ α : Type} (respond : User → ρ → ServiceM α)

def answer (w : World) (r : Incoming ρ) : Except Exn α × World :=
  (getDb (respond r.user r.request)).transact r.surroundings w

/-- One request after the other, with the responses to each of them. -/
def answerAll : World → List (Incoming ρ) → List (Except Exn α) × World
  | w, [] => ([], w)
  | w, r :: requests =>
    let (response, w) := answer respond w r
    let (responses, w) := answerAll w requests
    (response :: responses, w)

end

structure EnvironmentVariableRead where
  id : UUID
  projectId : UUID
  key : String
  value : String
  isSecret : Bool
  createdAt : Timestamp
  updatedAt : Timestamp
deriving DecidableEq

namespace EnvironmentVariableRead

/-- `_MASK` -/
def mask : String := "********"

/-- `mask_secret_value`, the validator that runs last. -/
def maskSecretValue (read : EnvironmentVariableRead) : EnvironmentVariableRead :=
  if read.isSecret then { read with value := mask } else read

/-- `from_attributes` -/
def ofRow (v : EnvironmentVariable) : EnvironmentVariableRead :=
  maskSecretValue
    { id := v.id, projectId := v.projectId, key := v.key, value := v.value, isSecret := v.isSecret,
      createdAt := v.createdAt, updatedAt := v.updatedAt }

end EnvironmentVariableRead

inductive VariableRequest
  | create (projectId : UUID) (key value : String) (isSecret : Bool)
  | list (projectId : UUID)
  | get (variableId : UUID)
  | update (variableId : UUID) (fields : EnvironmentVariableUpdate)
  | delete (variableId : UUID)

/-- The `response_model` of each endpoint; DELETE has none. -/
inductive VariableResponse
  | read (read : EnvironmentVariableRead)
  | reads (reads : List EnvironmentVariableRead)
  | noContent
deriving DecidableEq

def VariableResponse.ofRow (v : EnvironmentVariable) : VariableResponse := .read (.ofRow v)

def VariableResponse.ofRows (vs : List EnvironmentVariable) : VariableResponse :=
  .reads (vs.map .ofRow)

def VariableRequest.respond (currentUser : User) : VariableRequest → ServiceM VariableResponse
  | .create projectId key value isSecret =>
    .ofRow <$> EnvironmentVariableService.createVariable currentUser projectId key value isSecret
  | .list projectId => .ofRows <$> EnvironmentVariableService.listVariables currentUser projectId
  | .get variableId => .ofRow <$> EnvironmentVariableService.getVariable currentUser variableId
  | .update variableId fields =>
    .ofRow <$> EnvironmentVariableService.updateVariable currentUser variableId fields
  | .delete variableId => do
    EnvironmentVariableService.deleteVariable currentUser variableId
    return .noContent

/-- The endpoints that change the requests of a collection. -/
inductive RequestEdit
  | create (collectionId : UUID) (fields : ApiRequestCreate)
  | update (requestId : UUID) (fields : ApiRequestUpdate)
  | delete (requestId : UUID)

def RequestEdit.respond (currentUser : User) : RequestEdit → ServiceM (Option ApiRequest)
  | .create collectionId fields => some <$> ApiRequestService.createRequest currentUser collectionId fields
  | .update requestId fields => some <$> ApiRequestService.updateRequest currentUser requestId fields
  | .delete requestId => do
    ApiRequestService.deleteRequest currentUser requestId
    return none

end ApiTesting
