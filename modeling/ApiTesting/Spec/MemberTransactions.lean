import ApiTesting.Spec.Services

/-! The members of organizations under concurrent transactions at READ COMMITTED, with
one step for each statement. A SELECT sees what is committed by then and locks nothing;
a row that is written stays locked to the end of the transaction. -/

namespace ApiTesting

open Keyed

/-- A row of `organization_members` with its primary key. -/
structure MemberRow where
  id : UUID
  organizationId : UUID
  userId : UUID
  role : OrganizationRole

/-- The columns nobody changes. -/
def MemberRow.key (r : MemberRow) : UUID × UUID × UUID := (r.id, r.organizationId, r.userId)

def MemberRow.isOwnerOf (r : MemberRow) (organizationId : UUID) : Bool :=
  r.organizationId = organizationId ∧ r.role = .owner

inductive MemberRequest
  | add (userId : UUID) (role : OrganizationRole)
  | updateRole (targetUserId : UUID) (role : OrganizationRole)
  | remove (targetUserId : UUID)

namespace MemberRequest

def targetUserId : MemberRequest → UUID
  | .add userId _ => userId
  | .updateRole targetUserId _ => targetUserId
  | .remove targetUserId => targetUserId

/-- Whether a caller of this role passes the check of the membership. -/
def mayAct (currentUserId : UUID) (callerRole : OrganizationRole) : MemberRequest → Bool
  | .add _ role => callerRole ∈ adminRoles ∧ (role ∈ adminRoles → callerRole = .owner)
  | .updateRole _ _ => callerRole = .owner
  | .remove targetUserId => currentUserId = targetUserId ∨ callerRole = .owner

/-- `remove_member` of oneself takes the membership it has checked. -/
def isSelfRemoval (currentUserId : UUID) : MemberRequest → Bool
  | .remove targetUserId => currentUserId = targetUserId
  | _ => false

/-- Whether the owners are counted before this membership is changed. -/
def countsOwners (targetRole : OrganizationRole) : MemberRequest → Bool
  | .add _ _ => false
  | .updateRole _ role => targetRole = .owner ∧ role ≠ .owner
  | .remove _ => targetRole = .owner

end MemberRequest

/-- A statement that has been flushed. -/
inductive MemberWrite
  | insert (row : MemberRow)
  | setRole (target : MemberRow) (role : OrganizationRole)
  | delete (target : MemberRow)

/-- Where a transaction is: before its first SELECT, with the membership of the caller,
with the one it is about, past the count of the owners, past the check that a new member
is none yet, or after its flush, with the statement if one was sent. -/
inductive MemberStage
  | entered
  | authorized (caller : MemberRow)
  | found (target : MemberRow)
  | counted (target : MemberRow)
  | vacant
  | flushed (write : Option MemberWrite)

/-- `since` is a history: how many changes of owners had been committed at its first SELECT. -/
structure MemberTransaction where
  organizationId : UUID
  currentUserId : UUID
  request : MemberRequest
  stage : MemberStage
  since : ℕ

/-- What is committed, and `ownerChanges`, a history: the organizations whose owners a
COMMIT has changed, one entry for each. -/
structure MemberStore where
  organizations : List UUID
  rows : Table MemberRow.key
  nextId : UUID
  transactions : Dict ℕ MemberTransaction
  ownerChanges : List UUID

inductive MemberAction
  | createOrganization (organizationId creatorId : UUID)
  | begin (t : ℕ) (organizationId currentUserId : UUID) (request : MemberRequest)
  | read (t : ℕ)
  | flush (t : ℕ)
  | commit (t : ℕ) (call : Call)
  | rollback (t : ℕ)

namespace MemberStore

variable (s : MemberStore)

def membership (organizationId userId : UUID) : Option MemberRow :=
  s.rows.rows.find? fun r => r.organizationId = organizationId ∧ r.userId = userId

def countOwners (organizationId : UUID) : ℕ := s.rows.rows.countP fun r => r.isOwnerOf organizationId

def put (t : ℕ) (tx : MemberTransaction) : MemberStore := { s with transactions := s.transactions.put t tx }

def close (t : ℕ) : MemberStore := { s with transactions := s.transactions.erase t }

/-- Statements other transactions have flushed and not yet committed. -/
def pending (t : ℕ) : List MemberWrite :=
  s.transactions.rows.filterMap fun p =>
    if p.1 = t then none
    else
      match p.2.stage with
      | .flushed write => write
      | _ => none

/-- Another transaction holds the row. -/
def isLocked (t : ℕ) (key : UUID × UUID × UUID) : Bool :=
  (s.pending t).any fun
    | .insert _ => false
    | .setRole target _ => target.key = key
    | .delete target => target.key = key

/-- Another transaction is about to add or to remove the membership, so that the unique
index makes an INSERT wait. -/
def isContended (t : ℕ) (organizationId userId : UUID) : Bool :=
  (s.pending t).any fun
    | .insert row => row.organizationId = organizationId ∧ row.userId = userId
    | .setRole _ _ => false
    | .delete target => target.organizationId = organizationId ∧ target.userId = userId

/-- The next SELECT, with what follows from it. -/
def read (t : ℕ) (tx : MemberTransaction) : Option MemberStore :=
  match tx.stage with
  | .entered =>
    match s.membership tx.organizationId tx.currentUserId with
    | none => some (s.close t)
    | some caller =>
      if tx.request.mayAct tx.currentUserId caller.role then
        some (s.put t
          { tx with
            stage := if tx.request.isSelfRemoval tx.currentUserId then .found caller else .authorized caller
            since := s.ownerChanges.length })
      else some (s.close t)
  | .authorized caller =>
    match tx.request, s.membership tx.organizationId tx.request.targetUserId with
    | .add _ _, none => some (s.put t { tx with stage := .vacant })
    | .add _ _, some _ => some (s.close t)
    | _, none => some (s.close t)
    -- the session keeps the object it has loaded for a row, with the values it had then
    | _, some row => some (s.put t { tx with stage := .found (if row.key = caller.key then caller else row) })
  | .found target =>
    if tx.request.countsOwners target.role ∧ s.countOwners tx.organizationId ≤ 1 then some (s.close t)
    else some (s.put t { tx with stage := .counted target })
  | _ => none

/-- An UPDATE is sent where the role is another one; it raises where the row is gone,
while a DELETE of such a row goes unnoticed. -/
def flush (t : ℕ) (tx : MemberTransaction) : Option MemberStore :=
  match tx.stage, tx.request with
  | .counted target, .updateRole _ role =>
    if target.role = role then some (s.put t { tx with stage := .flushed none })
    else if s.isLocked t target.key then none
    else if (s.rows.get? target.key).isSome then
      some (s.put t { tx with stage := .flushed (some (.setRole target role)) })
    else some (s.close t)
  | .counted target, .remove _ =>
    if s.isLocked t target.key then none
    else if (s.rows.get? target.key).isSome then
      some (s.put t { tx with stage := .flushed (some (.delete target)) })
    else some (s.put t { tx with stage := .flushed none })
  | .vacant, .add userId role =>
    if s.isContended t tx.organizationId userId then none
    else if (s.membership tx.organizationId userId).isSome ∨ tx.organizationId ∉ s.organizations then
      some (s.close t)
    else
      some ({ s with nextId := s.nextId + 1 }.put t
        { tx with stage := .flushed (some (.insert ⟨s.nextId, tx.organizationId, userId, role⟩)) })
  | _, _ => none

def committed (write : Option MemberWrite) : Table MemberRow.key :=
  match write with
  | none => s.rows
  | some (.insert row) => (s.rows.insert? row).getD s.rows
  | some (.setRole target role) => s.rows.modify target.key fun r => { r with role }
  | some (.delete target) => s.rows.erase target.key

def owners (rows : Table MemberRow.key) (organizationId : UUID) : List (UUID × UUID × UUID) :=
  (rows.rows.filter fun r => r.isOwnerOf organizationId).map MemberRow.key

def commit (t : ℕ) (tx : MemberTransaction) (write : Option MemberWrite) : MemberStore :=
  let rows := s.committed write
  { s.close t with
    rows
    ownerChanges :=
      if owners rows tx.organizationId = owners s.rows tx.organizationId then s.ownerChanges
      else s.ownerChanges ++ [tx.organizationId] }

/-- `create_organization` adds an organization and its owner, and nothing of it is seen
before its COMMIT. -/
def createOrganization (organizationId creatorId : UUID) : Option MemberStore :=
  if organizationId ∈ s.organizations then none
  else
    some
      { s with
        organizations := s.organizations ++ [organizationId]
        rows := s.rows.set ⟨s.nextId, organizationId, creatorId, .owner⟩
        nextId := s.nextId + 1
        ownerChanges := s.ownerChanges ++ [organizationId] }

def step (s : MemberStore) : MemberAction → Option MemberStore
  | .createOrganization organizationId creatorId => s.createOrganization organizationId creatorId
  | .begin t organizationId currentUserId request =>
    if t ∈ s.transactions.keys then none
    else some (s.put t ⟨organizationId, currentUserId, request, .entered, 0⟩)
  | .read t =>
    match s.transactions.lookup t with
    | some tx => s.read t tx
    | none => none
  | .flush t =>
    match s.transactions.lookup t with
    | some tx => s.flush t tx
    | none => none
  | .commit t call =>
    match s.transactions.lookup t with
    | some tx =>
      match tx.stage with
      | .flushed write => some (if call.tookEffect then s.commit t tx write else s.close t)
      | _ => none
    | none => none
  | .rollback t => if t ∈ s.transactions.keys then some (s.close t) else none

end MemberStore

end ApiTesting
