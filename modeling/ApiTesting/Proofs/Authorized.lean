import ApiTesting.Proofs.Creation
import ApiTesting.Proofs.Edits
import ApiTesting.Proofs.Privileges
import Mathlib.Logic.Relation

/-! Every operation of the services, as writes to the rows of one organization: the one the
user was found to be a member of, or a new one. -/

namespace ApiTesting

open Keyed ServiceM Fallible

/-- Writes to rows of an organization, one after the other. -/
abbrev Edits (o : UUID) : Database → Database → Prop := Relation.ReflTransGen (Edit o)

/-- What a request of a user may leave. -/
inductive Authorized (userId : UUID) (db : Database) : Database → Prop
  | nothing : Authorized userId db db
  | edits {o : UUID} {db' : Database} (hmember : db.isMember o userId = true ∨ db.organizations.get? o = none)
    (h : Edits o db db') : Authorized userId db db'

/-- What the computation leaves in its session has the property, and is not committed yet. -/
structure Leaves {α : Type} (P : Database → Prop) (m : ServiceM α) (s : Session) : Prop where
  db : P (m s).2.db
  committed : (m s).2.committed = s.committed

section
variable {α β : Type} {P : Database → Prop} {m : ServiceM α} {s : Session}

theorem leaves_of_state {s' : Session} (h : (m s).2 = s') (hdb : P s'.db) (hcommitted : s'.committed = s.committed) :
    Leaves P m s := by
  subst h
  exact ⟨hdb, hcommitted⟩

theorem leaves_of_readOnly (hm : ReadOnly m) (hs : P s.db) : Leaves P m s := leaves_of_state (hm s) hs rfl

/-- After something was read. -/
theorem leaves_bind {k : α → ServiceM β} (hm : ReadOnly m) (hs : P s.db)
    (hk : ∀ a, m s = (.ok a, s) → Leaves P (k a) s) : Leaves P (m >>= k) s := by
  rcases h : m s with ⟨r, s'⟩
  obtain rfl := hm.same h
  cases r with
  | ok a => exact leaves_of_state (by rw [bind_of_ok k h]) (hk a h).db (hk a h).committed
  | error e => exact leaves_of_state (by rw [bind_of_error k h]) hs rfl

/-- One write after the other. -/
theorem leaves_andThen {k : α → ServiceM β} (hm : Leaves P m s)
    (hk : ∀ a s', m s = (.ok a, s') → P s'.db → Leaves P (k a) s') : Leaves P (m >>= k) s := by
  rcases h : m s with ⟨r, s'⟩
  have hdb := hm.db
  have hcommitted := hm.committed
  rw [h] at hdb hcommitted
  cases r with
  | ok a =>
    have hrest := hk a s' h hdb
    exact leaves_of_state (by rw [bind_of_ok k h]) hrest.db (hrest.committed.trans hcommitted)
  | error e => exact leaves_of_state (by rw [bind_of_error k h]) hdb hcommitted

/-- Before something that is only returned. -/
theorem leaves_bind_readOnly {k : α → ServiceM β} (hm : Leaves P m s) (hk : ∀ a, ReadOnly (k a)) :
    Leaves P (m >>= k) s :=
  leaves_andThen hm fun a _ _ hs => leaves_of_readOnly (hk a) hs

theorem leaves_flush {f : Database → Except Exn Database} (hs : P s.db) (hf : ∀ db, f s.db = .ok db → P db) :
    Leaves P (flush f) s := by
  refine ⟨?_, uncommitted_flush f s⟩
  rcases db_flush_cases f s with hsame | hwritten
  · rw [hsame]
    exact hs
  · exact hf _ hwritten

theorem leaves_generateIds {count : ℕ} {k : UUID → ServiceM β}
    (h : Leaves P (k s.nextId) { s with nextId := s.nextId + count }) : Leaves P (generateIds count >>= k) s :=
  leaves_of_state (by rw [bind_of_ok k (generateIds_run count)]) h.db h.committed

theorem leaves_raise {e : AppError} {k : α → ServiceM β} (hs : P s.db) : Leaves P (raise e >>= k) s :=
  leaves_bind (keeps_throw _) hs fun a h => by cases h

theorem leaves_onIntegrityError {e : AppError} (hm : Leaves P m s) : Leaves P (onIntegrityError e m) s := by
  refine leaves_of_state ?_ hm.db hm.committed
  rcases h : m s with ⟨r, s'⟩
  unfold onIntegrityError
  cases r with
  | ok a => rw [tryCatch_of_ok _ h]
  | error exc =>
    rw [tryCatch_of_error _ h]
    split <;> rfl

end

/-! The writes of one flush. -/

section
variable {ρ κ γ : Type} [DecidableEq κ] {key : ρ → κ} {t u : Table key} {r : ρ}

/-- A flush that checks a constraint and writes one table. -/
theorem ok_of_required {b : Bool} {x : Except Exn γ} {put : γ → Database} {db : Database}
    (h : (do require b; let t ← x; return put t) = .ok db) : b = true ∧ ∃ t, x = .ok t ∧ db = put t := by
  cases b with
  | false => cases h
  | true => exact ⟨rfl, ok_of_written h⟩

theorem insertRow_set (h : insertRow t r = .ok u) : t.get? (key r) = none ∧ u = t.set r :=
  ⟨Table.get?_eq_none_iff.2 (Table.rows_insert? (insertRow_ok h)).2, Table.insert?_eq_set (insertRow_ok h)⟩

/-- A new row has taken no other's place. -/
theorem replaces_nothing {k : κ} {Q : ρ → Prop} (h : t.get? k = none) : ∀ q, t.get? k = some q → Q q := by
  intro q hq
  rw [h] at hq
  cases hq

end

/-! What the checks at the start of an operation find. -/

section
variable {s s' : Session} {user : User} {id o : UUID} {roles : Option (List OrganizationRole)} {e : AppError}

theorem member_of_requireMembership {m : OrganizationMember}
    (h : requireMembership o user.id roles e s = (.ok m, s')) : s.db.isMember o user.id = true := by
  rw [Database.isMember, (requireMembership_ok h).1]
  rfl

/-- A row is read and found. -/
theorem found_ok {α β : Type} {f : Database → Option α} {k : α → ServiceM β} {b : β}
    (h : (do let row ← existing e (← query f); k row) s = (.ok b, s')) :
    ∃ a, f s.db = some a ∧ k a s = (.ok b, s') := by
  obtain ⟨x, s₁, hx, h⟩ := ok_of_bind h
  obtain ⟨a, s₂, ha, h⟩ := ok_of_bind h
  have hs₁ := (readOnly_query f).same hx
  have hs₂ := (readOnly_existing e x).same ha
  rw [query_ok hx] at ha
  exact ⟨a, existing_ok ha, by rw [← hs₁, ← hs₂]; exact h⟩

/-- Then it is checked that the user is a member of its organization. -/
theorem membership_ok {β : Type} {k : ServiceM β} {b : β}
    (h : (do let _ ← requireMembership o user.id roles e; k) s = (.ok b, s')) :
    s.db.isMember o user.id = true ∧ k s = (.ok b, s') := by
  obtain ⟨m, s₁, hm, h⟩ := ok_of_bind h
  have hs₁ := (readOnly_requireMembership _ _ _ _).same hm
  exact ⟨member_of_requireMembership hm, by rw [← hs₁]; exact h⟩

theorem getAuthorizedProject_owned {p : Project}
    (h : ProjectService.getAuthorizedProject user id roles s = (.ok p, s')) :
    s.db.projects.get? id = some p ∧ s.db.isMember p.organizationId user.id = true := by
  obtain ⟨p', hp, h⟩ := found_ok h
  obtain ⟨hm, h⟩ := membership_ok h
  cases h
  exact ⟨hp, hm⟩

theorem getAuthorizedCollection_owned {c : Collection}
    (h : CollectionService.getAuthorizedCollection user id roles s = (.ok c, s')) :
    s.db.collections.get? id = some c ∧ ∃ o, s.db.ownerOfProject c.projectId = some o ∧
      s.db.isMember o user.id = true := by
  obtain ⟨c', hc, h⟩ := found_ok h
  obtain ⟨p, hp, h⟩ := found_ok h
  obtain ⟨hm, h⟩ := membership_ok h
  cases h
  exact ⟨hc, p.organizationId, by rw [Database.ownerOfProject, hp]; rfl, hm⟩

theorem organizationIdForCollection_ok (h : organizationIdForCollection id e s = (.ok o, s')) :
    s.db.ownerOfCollection id = some o := by
  obtain ⟨c, hc, h⟩ := found_ok h
  obtain ⟨p, hp, h⟩ := found_ok h
  cases h
  rw [Database.ownerOfCollection, hc, Option.bind_some, Database.ownerOfProject, hp]
  rfl

/-- The organization of a collection, and then the rest. -/
theorem organizationOf_ok {β : Type} {k : UUID → ServiceM β} {b : β}
    (h : (organizationIdForCollection id e >>= k) s = (.ok b, s')) :
    ∃ o, s.db.ownerOfCollection id = some o ∧ k o s = (.ok b, s') := by
  obtain ⟨o, s₁, ho, h⟩ := ok_of_bind h
  have hs₁ := (readOnly_organizationIdForCollection _ _).same ho
  exact ⟨o, organizationIdForCollection_ok ho, by rw [← hs₁]; exact h⟩

theorem getAuthorizedRequest_owned {r : ApiRequest}
    (h : ApiRequestService.getAuthorizedRequest user id roles s = (.ok r, s')) :
    s.db.apiRequests.get? id = some r ∧ ∃ o, s.db.ownerOfCollection r.collectionId = some o ∧
      s.db.isMember o user.id = true := by
  obtain ⟨r', hr, h⟩ := found_ok h
  obtain ⟨o, ho, h⟩ := organizationOf_ok h
  obtain ⟨hm, h⟩ := membership_ok h
  cases h
  exact ⟨hr, o, ho, hm⟩

theorem organizationIdForRequest_ok (h : AssertionService.organizationIdForRequest id s = (.ok o, s')) :
    s.db.ownerOfRequest id = some o := by
  obtain ⟨r, hr, h⟩ := found_ok h
  rw [Database.ownerOfRequest, hr]
  exact organizationIdForCollection_ok h

theorem organizationIdForProject_ok (h : EnvironmentVariableService.organizationIdForProject id s = (.ok o, s')) :
    s.db.ownerOfProject id = some o := by
  obtain ⟨p, hp, h⟩ := found_ok h
  cases h
  rw [Database.ownerOfProject, hp]
  rfl

theorem getAuthorizedSchedule_owned {sc : Schedule}
    (h : ScheduleService.getAuthorizedSchedule user id roles s = (.ok sc, s')) :
    s.db.schedules.get? id = some sc ∧ ∃ o, s.db.ownerOfCollection sc.collectionId = some o ∧
      s.db.isMember o user.id = true := by
  obtain ⟨sc', hsc, h⟩ := found_ok h
  obtain ⟨o, ho, h⟩ := organizationOf_ok h
  obtain ⟨hm, h⟩ := membership_ok h
  cases h
  exact ⟨hsc, o, ho, hm⟩

end

/-! They only read. -/

section
variable (user : User) (id : UUID) (roles : Option (List OrganizationRole))

theorem readOnly_getAuthorizedProject : ReadOnly (ProjectService.getAuthorizedProject user id roles) :=
  (readOnly_query _).bind fun _ => (readOnly_existing _ _).bind fun _ =>
    (readOnly_requireMembership _ _ _ _).bind fun _ => keeps_pure _

theorem readOnly_getAuthorizedCollection : ReadOnly (CollectionService.getAuthorizedCollection user id roles) :=
  (readOnly_query _).bind fun _ => (readOnly_existing _ _).bind fun _ => (readOnly_query _).bind fun _ =>
    (readOnly_existing _ _).bind fun _ => (readOnly_requireMembership _ _ _ _).bind fun _ => keeps_pure _

theorem readOnly_getAuthorizedRequest : ReadOnly (ApiRequestService.getAuthorizedRequest user id roles) :=
  (readOnly_query _).bind fun _ => (readOnly_existing _ _).bind fun _ =>
    (readOnly_organizationIdForCollection _ _).bind fun _ => (readOnly_requireMembership _ _ _ _).bind
      fun _ => keeps_pure _

theorem readOnly_organizationIdForRequest : ReadOnly (AssertionService.organizationIdForRequest id) :=
  (readOnly_query _).bind fun _ => (readOnly_existing _ _).bind fun _ => readOnly_organizationIdForCollection _ _

theorem readOnly_organizationIdForProject : ReadOnly (EnvironmentVariableService.organizationIdForProject id) :=
  (readOnly_query _).bind fun _ => (readOnly_existing _ _).bind fun _ => keeps_pure _

theorem readOnly_getAuthorizedVariable : ReadOnly (EnvironmentVariableService.getAuthorizedVariable user id) :=
  (readOnly_query _).bind fun _ => (readOnly_existing _ _).bind fun _ =>
    (readOnly_organizationIdForProject _).bind fun _ => (readOnly_requireMembership _ _ _ _).bind
      fun _ => keeps_pure _

theorem readOnly_getAuthorizedSchedule : ReadOnly (ScheduleService.getAuthorizedSchedule user id roles) :=
  (readOnly_query _).bind fun _ => (readOnly_existing _ _).bind fun _ =>
    (readOnly_organizationIdForCollection _ _).bind fun _ => (readOnly_requireMembership _ _ _ _).bind
      fun _ => keeps_pure _

theorem readOnly_getAuthorizedRun : ReadOnly (TestRunService.getAuthorizedRun user id) :=
  (readOnly_query _).bind fun _ => (readOnly_existing _ _).bind fun _ =>
    (readOnly_organizationIdForCollection _ _).bind fun _ => (readOnly_requireMembership _ _ _ _).bind
      fun _ => keeps_pure _

theorem readOnly_computeNextRunAt (lib : Libraries) (expression timezone : String) :
    ReadOnly (computeNextRunAt lib expression timezone) := by
  refine readOnly_now.bind fun now => ?_
  split
  · exact keeps_pure _
  · exact keeps_throw _

end

/-! The deletions of a subtree. -/

section
variable {db db' : Database} {o : UUID} {T : Subtree}

theorem removed_of_ok {f : Database → Except Exn Database} {ok : Prop} (h : Removes db f ok T)
    (hf : f db = .ok db') : ok ∧ db' = db.prune T := by
  obtain ⟨hgood, hbad⟩ := removes_run h
  by_cases hok : ok
  · rw [hgood hok] at hf
    exact ⟨hok, (Except.ok.inj hf).symm⟩
  · obtain ⟨e, he⟩ := hbad hok
    rw [he] at hf
    cases hf

theorem get?_of_mem {ρ κ : Type} [DecidableEq κ] {key : ρ → κ} {t : Table key} {r : ρ} (h : r ∈ t.rows) :
    t.get? (key r) = some r := Table.get?_eq_some_iff.2 ⟨h, rfl⟩

/-- Of a kind that a subtree has no rows of, everything holds. -/
theorem noRows {ρ : Type} {rows : List ρ} {P : ρ → Prop} : ∀ r ∈ rows, false = true → P r :=
  fun _ _ h => absurd h Bool.false_ne_true

theorem edit_requestTree {r : ApiRequest} (hr : r ∈ db.apiRequests.rows)
    (ho : db.ownerOfCollection r.collectionId = some o) (hunused : db.Unused (requestTree r)) :
    Edit o db (db.prune (requestTree r)) := by
  refine .prune _ ⟨noRows, noRows, noRows, noRows, fun q hq hid => ?_⟩ ⟨noRows, noRows, noRows, noRows⟩ hunused
  have hrow := get?_of_mem hq
  rw [of_decide_eq_true hid, get?_of_mem hr] at hrow
  cases hrow
  exact ho

theorem edit_collectionTree {c : Collection} (hc : c ∈ db.collections.rows)
    (ho : db.ownerOfProject c.projectId = some o) (hunused : db.Unused (db.collectionTree c)) :
    Edit o db (db.prune (db.collectionTree c)) := by
  have howner : db.ownerOfCollection c.id = some o := by
    rw [Database.ownerOfCollection, get?_of_mem hc]
    exact ho
  refine .prune _ ⟨noRows, noRows, noRows, fun q hq hid => ?_, fun r hr hid => ?_⟩
    ⟨noRows, noRows, noRows, fun r hr hid => ?_⟩ hunused
  · have hrow := get?_of_mem hq
    rw [of_decide_eq_true hid, get?_of_mem hc] at hrow
    cases hrow
    exact ho
  · rw [Database.collectionTree, get?_of_mem hr, Option.any_some] at hid
    rw [of_decide_eq_true hid, howner]
  · rw [Database.collectionTree, get?_of_mem hr, Option.any_some]
    exact hid

theorem edit_projectTree {p : Project} (hp : p ∈ db.projects.rows) (ho : p.organizationId = o)
    (hunused : db.Unused (db.projectTree p)) : Edit o db (db.prune (db.projectTree p)) := by
  have howner : db.ownerOfProject p.id = some o := by
    rw [Database.ownerOfProject, get?_of_mem hp]
    exact congrArg some ho
  refine .prune _ ⟨noRows, noRows, fun q hq hid => ?_, fun c hc hid => ?_, fun r hr hid => ?_⟩
    ⟨noRows, noRows, fun c hc hid => ?_, fun r hr hid => ?_⟩ hunused
  · have hrow := get?_of_mem hq
    rw [of_decide_eq_true hid, get?_of_mem hp] at hrow
    cases hrow
    exact ho
  · rw [Database.projectTree, get?_of_mem hc, Option.any_some] at hid
    rw [of_decide_eq_true hid, howner]
  · rw [Database.projectTree, get?_of_mem hr, Option.any_some, Option.any_eq_true] at hid
    obtain ⟨c, hc, hid⟩ := hid
    rw [Database.ownerOfCollection, hc, Option.bind_some, of_decide_eq_true hid, howner]
  · rw [Database.projectTree, get?_of_mem hc, Option.any_some]
    exact hid
  · rw [Database.projectTree, get?_of_mem hr, Option.any_some]
    exact hid

theorem edit_organizationTree {org : Organization} (hunused : db.Unused (db.organizationTree org)) :
    Edit org.id db (db.prune (db.organizationTree org)) := by
  refine .prune _
    ⟨fun q _ hid => of_decide_eq_true hid, fun m _ hid => of_decide_eq_true hid, fun p hp hid => ?_,
      fun c hc hid => ?_, fun r hr hid => ?_⟩
    ⟨fun m _ hid => hid, fun p hp hid => ?_, fun c hc hid => ?_, fun r hr hid => ?_⟩ hunused
  · rw [Database.organizationTree, get?_of_mem hp, Option.any_some] at hid
    exact of_decide_eq_true hid
  · rw [Database.organizationTree, get?_of_mem hc, Option.any_some, Option.any_eq_true] at hid
    obtain ⟨p, hp, hid⟩ := hid
    rw [Database.ownerOfProject, hp, Option.map_some, of_decide_eq_true hid]
  · rw [Database.organizationTree, get?_of_mem hr, Option.any_some, Option.any_eq_true] at hid
    obtain ⟨c, hc, hid⟩ := hid
    rw [Option.any_eq_true] at hid
    obtain ⟨p, hp, hid⟩ := hid
    rw [Database.ownerOfCollection, hc, Option.bind_some, Database.ownerOfProject, hp, Option.map_some,
      of_decide_eq_true hid]
  · rw [Database.organizationTree, get?_of_mem hp, Option.any_some]
    exact hid
  · rw [Database.organizationTree, get?_of_mem hc, Option.any_some]
    exact hid
  · rw [Database.organizationTree, get?_of_mem hr, Option.any_some]
    exact hid

end

/-! One lemma for each operation that writes. -/

/-- The computation leaves what a request of the user may leave. -/
abbrev ByMember {α : Type} (user : User) (m : ServiceM α) (s : Session) : Prop :=
  Leaves (Authorized user.id s.db) m s

section
variable {s : Session} {user : User} {lib : Libraries} {id o : UUID}

/-- One write to rows of an organization the user is a member of. -/
theorem authorized_edit {db db' : Database} {userId : UUID} (hm : db.isMember o userId = true)
    (h : Edit o db db') : Authorized userId db db' := .edits (.inl hm) (.single h)

theorem byMember_of_readOnly {α : Type} {m : ServiceM α} (hm : ReadOnly m) : ByMember user m s :=
  leaves_of_readOnly hm .nothing

theorem updateOrganization_leaves (name slug : Option String) :
    ByMember user (OrganizationService.updateOrganization user id name slug) s := by
  unfold OrganizationService.updateOrganization
  refine leaves_bind (readOnly_requireMembership _ _ _ _) .nothing fun member hmember => ?_
  refine leaves_bind (readOnly_query _) .nothing fun x hx => ?_
  refine leaves_bind (readOnly_existing _ _) .nothing fun org horg => ?_
  refine leaves_bind_readOnly (leaves_onIntegrityError ?_) fun _ => keeps_pure _
  refine leaves_bind_readOnly (leaves_flush .nothing fun db h => ?_) fun _ => keeps_pure _
  obtain ⟨-, organizations, hu, rfl⟩ := ok_of_required h
  have hfound := existing_ok horg
  rw [query_ok hx] at hfound
  rw [updateRow_ok hu]
  exact authorized_edit (member_of_requireMembership hmember)
    (.organization _ (Table.get?_eq_some_iff.1 hfound).2)

theorem deleteOrganization_leaves : ByMember user (OrganizationService.deleteOrganization user id) s := by
  unfold OrganizationService.deleteOrganization
  refine leaves_bind (readOnly_requireMembership _ _ _ _) .nothing fun member hmember => ?_
  refine leaves_bind (readOnly_query _) .nothing fun x hx => ?_
  refine leaves_bind (readOnly_existing _ _) .nothing fun org horg => leaves_flush .nothing fun db h => ?_
  have hfound := existing_ok horg
  rw [query_ok hx] at hfound
  obtain ⟨hrow, rfl⟩ := Table.get?_eq_some_iff.1 hfound
  obtain ⟨hok, rfl⟩ := removed_of_ok (removes_organization hrow) h
  exact authorized_edit (member_of_requireMembership hmember)
    (edit_organizationTree (unusedOrganization_iff.1 hok))

/-- A membership of an organization of the user, or of a new one. -/
theorem addMemberRow_leaves {P : Database → Prop} {target : UUID} {role : OrganizationRole} (hs : P s.db)
    (h : ∀ db, Edit o s.db db → P db) : Leaves P (OrganizationMemberRepository.addMember o target role) s := by
  unfold OrganizationMemberRepository.addMember
  refine leaves_bind readOnly_now hs fun at_ _ => ?_
  refine leaves_bind_readOnly (leaves_flush hs fun db hf => ?_) fun _ => keeps_pure _
  obtain ⟨hparents, members, hu, rfl⟩ := ok_of_required hf
  rw [Bool.and_eq_true] at hparents
  rw [(insertRow_set hu).2]
  exact h _ (.member _ rfl hparents.1 hparents.2)

theorem addMember_leaves (email : String) (role : OrganizationRole) :
    ByMember user (OrganizationService.addMember lib user id email role) s := by
  unfold OrganizationService.addMember
  refine leaves_bind (readOnly_requireMembership _ _ _ _) .nothing fun member hmember => ?_
  dsimp only
  split
  · exact leaves_raise .nothing
  refine leaves_bind (readOnly_query _) .nothing fun x _ => ?_
  refine leaves_bind (readOnly_existing _ _) .nothing fun target _ => ?_
  refine leaves_bind (readOnly_query _) .nothing fun y _ => ?_
  split
  · exact leaves_raise .nothing
  exact leaves_onIntegrityError (addMemberRow_leaves .nothing fun db h =>
    authorized_edit (member_of_requireMembership hmember) h)

theorem updateMemberRole_leaves (hlinked : s.db.Linked) (target : UUID) (role : OrganizationRole) :
    ByMember user (OrganizationService.updateMemberRole user id target role) s := by
  unfold OrganizationService.updateMemberRole
  refine leaves_bind (readOnly_requireMembership _ _ _ _) .nothing fun member hmember => ?_
  refine leaves_bind (readOnly_query _) .nothing fun x hx => ?_
  refine leaves_bind (readOnly_existing _ _) .nothing fun membership hm => ?_
  have hfound := existing_ok hm
  rw [query_ok hx] at hfound
  obtain ⟨hrow, hkey⟩ := Table.get?_eq_some_iff.1 hfound
  have hset : ByMember user (OrganizationMemberRepository.updateRole membership role) s := by
    refine leaves_bind_readOnly (leaves_flush .nothing fun db h => ?_) fun _ => keeps_pure _
    obtain ⟨members, hu, rfl⟩ := ok_of_written h
    rw [updateRow_ok hu]
    exact authorized_edit (member_of_requireMembership hmember) (.member _ (congrArg Prod.fst hkey)
      (hlinked.members membership hrow) (hlinked.memberUsers membership hrow))
  dsimp only
  split
  · exact leaves_bind (readOnly_keepOwner _) .nothing fun _ _ => hset
  · exact hset

theorem removeMember_leaves (target : UUID) : ByMember user (OrganizationService.removeMember user id target) s := by
  unfold OrganizationService.removeMember
  have hdelete : ∀ m : OrganizationMember, m.organizationId = id → s.db.isMember id user.id = true →
      ByMember user (OrganizationMemberRepository.removeMember m) s := by
    intro m hm hmember
    refine leaves_flush .nothing fun db h => ?_
    obtain ⟨members, hu, rfl⟩ := ok_of_written h
    rw [deleteRow_ok hu, OrganizationMember.key, hm]
    exact authorized_edit hmember (.removeMember m.userId)
  have hrest : ∀ m : OrganizationMember, m.organizationId = id → s.db.isMember id user.id = true →
      ByMember user (do
        if m.role = .owner then OrganizationService.keepOwner id
        OrganizationMemberRepository.removeMember m) s := by
    intro m hm hmember
    dsimp only
    split
    · exact leaves_bind (readOnly_keepOwner _) .nothing fun _ _ => hdelete m hm hmember
    · exact hdelete m hm hmember
  dsimp only
  split
  · refine leaves_bind (readOnly_requireMembership _ _ _ _) .nothing fun m hm =>
      hrest m ?_ (member_of_requireMembership hm)
    exact congrArg Prod.fst (Table.get?_eq_some_iff.1 (requireMembership_ok hm).1).2
  · refine leaves_bind (readOnly_requireMembership _ _ _ _) .nothing fun member hmember => ?_
    refine leaves_bind (readOnly_query _) .nothing fun x hx => ?_
    refine leaves_bind (readOnly_existing _ _) .nothing fun m hm =>
      hrest m ?_ (member_of_requireMembership hmember)
    have hfound := existing_ok hm
    rw [query_ok hx] at hfound
    exact congrArg Prod.fst (Table.get?_eq_some_iff.1 hfound).2

/-- The organization is new, and nobody's rows are of it yet. -/
theorem createOrganization_leaves (name slug : String) :
    ByMember user (OrganizationService.createOrganization user name slug) s := by
  unfold OrganizationService.createOrganization OrganizationRepository.create generateUuid7
  refine leaves_bind_readOnly (leaves_onIntegrityError ?_) fun _ => keeps_pure _
  refine leaves_andThen (leaves_generateIds ?_) fun org s' hcreate _ => ?_
  · refine leaves_bind readOnly_now .nothing fun at_ _ => ?_
    refine leaves_bind_readOnly (leaves_flush .nothing fun db h => ?_) fun _ => keeps_pure _
    obtain ⟨-, organizations, hu, rfl⟩ := ok_of_required h
    obtain ⟨hnew, rfl⟩ := insertRow_set hu
    exact .edits (.inr hnew) (.single (.organization _ rfl))
  · rw [bind_of_ok _ (generateIds_run 1), bind_of_ok _ now_run] at hcreate
    obtain ⟨u, s₁, hflush, hreturn⟩ := ok_of_bind hcreate
    cases hreturn
    obtain ⟨db, hdb, rfl⟩ := flush_ok hflush
    obtain ⟨-, organizations, hu, rfl⟩ := ok_of_required hdb
    obtain ⟨hnew, rfl⟩ := insertRow_set hu
    have hfirst : Edit s.nextId s.db
        { s.db with organizations := s.db.organizations.set ⟨s.nextId, name, slug, s.now⟩ } :=
      .organization _ rfl
    refine leaves_bind_readOnly (addMemberRow_leaves ?_ fun db h => ?_) fun _ => keeps_pure _
    · exact .edits (.inr hnew) (.single hfirst)
    · exact .edits (.inr hnew) (.tail (.single hfirst) h)

theorem createProject_leaves (name : String) (description : Option String) :
    ByMember user (ProjectService.createProject user id name description) s := by
  unfold ProjectService.createProject ProjectRepository.create generateUuid7
  refine leaves_bind (readOnly_requireMembership _ _ _ _) .nothing fun member hmember => leaves_generateIds ?_
  refine leaves_bind readOnly_now .nothing fun at_ _ => ?_
  refine leaves_bind_readOnly (leaves_flush .nothing fun db h => ?_) fun _ => keeps_pure _
  obtain ⟨hparents, projects, hu, rfl⟩ := ok_of_required h
  obtain ⟨hnew, rfl⟩ := insertRow_set hu
  rw [Bool.and_eq_true] at hparents
  exact authorized_edit (member_of_requireMembership hmember)
    (.project _ rfl (replaces_nothing hnew) hparents.1 hparents.2)

theorem updateProject_leaves (hlinked : s.db.Linked) (updateData : ProjectUpdate) :
    ByMember user (ProjectService.updateProject user id updateData) s := by
  refine leaves_bind (readOnly_getAuthorizedProject _ _ _) .nothing fun p hp => ?_
  refine leaves_bind_readOnly (leaves_flush .nothing fun db h => ?_) fun _ => keeps_pure _
  obtain ⟨hfound, hm⟩ := getAuthorizedProject_owned hp
  obtain ⟨hrow, rfl⟩ := Table.get?_eq_some_iff.1 hfound
  obtain ⟨projects, hu, rfl⟩ := ok_of_written h
  rw [updateRow_ok hu]
  refine authorized_edit hm (.project _ rfl (fun q hq => ?_) (hlinked.projects p hrow)
    (hlinked.projectCreators p hrow))
  rw [show (updateData.applyTo p).id = p.id from rfl, hfound] at hq
  cases hq
  rfl

theorem deleteProject_leaves : ByMember user (ProjectService.deleteProject user id) s := by
  refine leaves_bind (readOnly_getAuthorizedProject _ _ _) .nothing fun p hp => leaves_flush .nothing fun db h => ?_
  obtain ⟨hfound, hm⟩ := getAuthorizedProject_owned hp
  have hrow := (Table.get?_eq_some_iff.1 hfound).1
  obtain ⟨hok, rfl⟩ := removed_of_ok (removes_project hrow) h
  exact authorized_edit hm (edit_projectTree hrow rfl (unusedProject_iff.1 hok))

theorem createCollection_leaves (name : String) (description : Option String) :
    ByMember user (CollectionService.createCollection user id name description) s := by
  unfold CollectionService.createCollection CollectionRepository.create generateUuid7
  refine leaves_bind (readOnly_getAuthorizedProject _ _ _) .nothing fun p hp => leaves_generateIds ?_
  refine leaves_bind readOnly_now .nothing fun at_ _ => ?_
  refine leaves_bind_readOnly (leaves_flush .nothing fun db h => ?_) fun _ => keeps_pure _
  obtain ⟨hfound, hm⟩ := getAuthorizedProject_owned hp
  obtain ⟨-, collections, hu, rfl⟩ := ok_of_required h
  obtain ⟨hnew, rfl⟩ := insertRow_set hu
  have ho : s.db.ownerOfProject id = some p.organizationId := by
    rw [Database.ownerOfProject, hfound]
    rfl
  exact authorized_edit hm (.collection _ ho (replaces_nothing hnew))

theorem updateCollection_leaves (updateData : CollectionUpdate) :
    ByMember user (CollectionService.updateCollection user id updateData) s := by
  refine leaves_bind (readOnly_getAuthorizedCollection _ _ _) .nothing fun c hc => ?_
  refine leaves_bind_readOnly (leaves_flush .nothing fun db h => ?_) fun _ => keeps_pure _
  obtain ⟨hfound, o, ho, hm⟩ := getAuthorizedCollection_owned hc
  obtain ⟨hrow, rfl⟩ := Table.get?_eq_some_iff.1 hfound
  obtain ⟨collections, hu, rfl⟩ := ok_of_written h
  rw [updateRow_ok hu]
  refine authorized_edit hm (.collection _ ho fun q hq => ?_)
  rw [show (updateData.applyTo c).id = c.id from rfl, hfound] at hq
  cases hq
  rfl

theorem deleteCollection_leaves : ByMember user (CollectionService.deleteCollection user id) s := by
  refine leaves_bind (readOnly_getAuthorizedCollection _ _ _) .nothing fun c hc =>
    leaves_flush .nothing fun db h => ?_
  obtain ⟨hfound, o, ho, hm⟩ := getAuthorizedCollection_owned hc
  have hrow := (Table.get?_eq_some_iff.1 hfound).1
  obtain ⟨hok, rfl⟩ := removed_of_ok (removes_collection hrow) h
  exact authorized_edit hm (edit_collectionTree hrow ho (unusedCollection_iff.1 hok))

theorem createRequest_leaves (fields : ApiRequestCreate) :
    ByMember user (ApiRequestService.createRequest user id fields) s := by
  unfold ApiRequestService.createRequest
  refine leaves_bind (readOnly_organizationIdForCollection _ _) .nothing fun o ho => ?_
  refine leaves_bind (readOnly_requireMembership _ _ _ _) .nothing fun member hmember => ?_
  have howner := organizationIdForCollection_ok ho
  have hm := member_of_requireMembership hmember
  have hcreate : ∀ r : ApiRequest, r.collectionId = id → ByMember user (ApiRequestRepository.create r) s := by
    intro r hr
    unfold ApiRequestRepository.create generateUuid7
    refine leaves_generateIds (leaves_bind readOnly_now .nothing fun at_ _ => ?_)
    refine leaves_bind_readOnly (leaves_flush .nothing fun db h => ?_) fun _ => keeps_pure _
    obtain ⟨-, apiRequests, hu, rfl⟩ := ok_of_required h
    obtain ⟨hnew, rfl⟩ := insertRow_set hu
    exact authorized_edit hm (.apiRequest _ (hr ▸ howner) (replaces_nothing hnew))
  dsimp only
  split
  · exact leaves_bind (keeps_pure _) .nothing fun _ _ => hcreate _ rfl
  · refine leaves_bind ?_ .nothing fun _ _ => hcreate _ rfl
    exact (readOnly_query _).bind fun _ => keeps_pure _

theorem updateRequest_leaves (fields : ApiRequestUpdate) :
    ByMember user (ApiRequestService.updateRequest user id fields) s := by
  refine leaves_bind (readOnly_getAuthorizedRequest _ _ _) .nothing fun r hr => ?_
  refine leaves_bind_readOnly (leaves_flush .nothing fun db h => ?_) fun _ => keeps_pure _
  obtain ⟨hfound, o, ho, hm⟩ := getAuthorizedRequest_owned hr
  obtain ⟨hrow, rfl⟩ := Table.get?_eq_some_iff.1 hfound
  obtain ⟨apiRequests, hu, rfl⟩ := ok_of_written h
  rw [updateRow_ok hu]
  refine authorized_edit hm (.apiRequest _ ho fun q hq => ?_)
  rw [show (fields.applyTo r).id = r.id from rfl, hfound] at hq
  cases hq
  rfl

theorem deleteRequest_leaves : ByMember user (ApiRequestService.deleteRequest user id) s := by
  refine leaves_bind (readOnly_getAuthorizedRequest _ _ _) .nothing fun r hr => leaves_flush .nothing fun db h => ?_
  obtain ⟨hfound, o, ho, hm⟩ := getAuthorizedRequest_owned hr
  have hrow := (Table.get?_eq_some_iff.1 hfound).1
  obtain ⟨hok, rfl⟩ := removed_of_ok (removes_apiRequest hrow) h
  exact authorized_edit hm (edit_requestTree hrow ho (unusedRequest_iff.1 hok))

theorem createAssertion_leaves (type : AssertionType) (config : Dict String Json) :
    ByMember user (AssertionService.createAssertion user id type config) s := by
  unfold AssertionService.createAssertion AssertionRepository.create generateUuid7
  refine leaves_bind (readOnly_organizationIdForRequest _) .nothing fun o ho => ?_
  refine leaves_bind (readOnly_requireMembership _ _ _ _) .nothing fun member hmember => leaves_generateIds ?_
  refine leaves_bind readOnly_now .nothing fun at_ _ => ?_
  refine leaves_bind_readOnly (leaves_flush .nothing fun db h => ?_) fun _ => keeps_pure _
  obtain ⟨-, assertions, hu, rfl⟩ := ok_of_required h
  obtain ⟨hnew, rfl⟩ := insertRow_set hu
  exact authorized_edit (member_of_requireMembership hmember)
    (.assertion _ (organizationIdForRequest_ok ho) hnew)

theorem deleteAssertion_leaves : ByMember user (AssertionService.deleteAssertion user id) s := by
  unfold AssertionService.deleteAssertion
  refine leaves_bind (readOnly_query _) .nothing fun x hx => ?_
  refine leaves_bind (readOnly_existing _ _) .nothing fun a ha => ?_
  refine leaves_bind (readOnly_organizationIdForRequest _) .nothing fun o ho => ?_
  refine leaves_bind (readOnly_requireMembership _ _ _ _) .nothing fun member hmember => ?_
  refine leaves_flush .nothing fun db h => ?_
  have hfound := existing_ok ha
  rw [query_ok hx] at hfound
  obtain ⟨assertions, hu, rfl⟩ := ok_of_written h
  rw [deleteRow_ok hu]
  exact authorized_edit (member_of_requireMembership hmember)
    (.removeAssertion a (Table.get?_eq_some_iff.1 hfound).1 (organizationIdForRequest_ok ho))

theorem createVariable_leaves (key value : String) (isSecret : Bool) :
    ByMember user (EnvironmentVariableService.createVariable user id key value isSecret) s := by
  unfold EnvironmentVariableService.createVariable
  refine leaves_bind (readOnly_organizationIdForProject _) .nothing fun o ho => ?_
  refine leaves_bind (readOnly_requireMembership _ _ _ _) .nothing fun member hmember => ?_
  dsimp only
  split
  · exact leaves_raise .nothing
  unfold EnvironmentVariableRepository.create generateUuid7
  refine leaves_onIntegrityError (leaves_bind readOnly_now .nothing fun at_ _ => leaves_generateIds ?_)
  refine leaves_bind_readOnly (leaves_flush .nothing fun db h => ?_) fun _ => keeps_pure _
  obtain ⟨-, written, hu, rfl⟩ := ok_of_required h
  obtain ⟨hnew, rfl⟩ := insertRow_set hu
  exact authorized_edit (member_of_requireMembership hmember)
    (.environmentVariable _ (organizationIdForProject_ok ho) (replaces_nothing hnew))

/-- A variable that was found, with the organization of its project. -/
theorem getAuthorizedVariable_owned {v : EnvironmentVariable} {role : OrganizationRole} {s' : Session}
    (h : EnvironmentVariableService.getAuthorizedVariable user id s = (.ok (v, role), s')) :
    s.db.environmentVariables.get? id = some v ∧ ∃ o, s.db.ownerOfProject v.projectId = some o ∧
      s.db.isMember o user.id = true := by
  obtain ⟨v', hv, h⟩ := found_ok h
  obtain ⟨o, s₁, ho, h⟩ := ok_of_bind h
  have hs₁ := (readOnly_organizationIdForProject _).same ho
  obtain ⟨m, s₂, hm, h⟩ := ok_of_bind h
  cases h
  rw [hs₁] at hm
  exact ⟨hv, o, organizationIdForProject_ok ho, member_of_requireMembership hm⟩

theorem updateVariable_leaves (fields : EnvironmentVariableUpdate) :
    ByMember user (EnvironmentVariableService.updateVariable user id fields) s := by
  refine leaves_bind (readOnly_getAuthorizedVariable _ _) .nothing fun ⟨v, role⟩ hv => ?_
  obtain ⟨hfound, o, ho, hm⟩ := getAuthorizedVariable_owned hv
  dsimp only
  split
  · exact leaves_raise .nothing
  unfold EnvironmentVariableRepository.update
  refine leaves_onIntegrityError ?_
  split
  · exact leaves_of_readOnly (keeps_pure _) .nothing
  refine leaves_bind readOnly_now .nothing fun at_ _ => ?_
  refine leaves_bind_readOnly (leaves_flush .nothing fun db h => ?_) fun _ => keeps_pure _
  obtain ⟨-, written, hu, rfl⟩ := ok_of_required h
  rw [updateRow_ok hu]
  refine authorized_edit hm (.environmentVariable _ ho fun q hq => ?_)
  obtain ⟨hrow, rfl⟩ := Table.get?_eq_some_iff.1 hfound
  rw [show ({ fields.applyTo v with updatedAt := at_ } : EnvironmentVariable).id = v.id from rfl, hfound] at hq
  cases hq
  rfl

theorem deleteVariable_leaves : ByMember user (EnvironmentVariableService.deleteVariable user id) s := by
  refine leaves_bind (readOnly_getAuthorizedVariable _ _) .nothing fun ⟨v, role⟩ hv => ?_
  obtain ⟨hfound, o, ho, hm⟩ := getAuthorizedVariable_owned hv
  dsimp only
  split
  · exact leaves_raise .nothing
  refine leaves_flush .nothing fun db h => ?_
  obtain ⟨written, hu, rfl⟩ := ok_of_written h
  rw [deleteRow_ok hu]
  exact authorized_edit hm (.removeVariable v (Table.get?_eq_some_iff.1 hfound).1 ho)

theorem createSchedule_leaves (expression timezone : String) (isActive : Bool) :
    ByMember user (ScheduleService.createSchedule lib user id expression timezone isActive) s := by
  unfold ScheduleService.createSchedule
  refine leaves_bind (readOnly_organizationIdForCollection _ _) .nothing fun o ho => ?_
  refine leaves_bind (readOnly_requireMembership _ _ _ _) .nothing fun member hmember => ?_
  have howner := organizationIdForCollection_ok ho
  have hm := member_of_requireMembership hmember
  have hcreate : ∀ sc : Schedule, sc.collectionId = id → ByMember user (ScheduleRepository.create sc) s := by
    intro sc hsc
    unfold ScheduleRepository.create generateUuid7
    refine leaves_generateIds (leaves_bind readOnly_now .nothing fun at_ _ => ?_)
    refine leaves_bind_readOnly (leaves_flush .nothing fun db h => ?_) fun _ => keeps_pure _
    obtain ⟨hparents, schedules, hu, rfl⟩ := ok_of_required h
    obtain ⟨hnew, rfl⟩ := insertRow_set hu
    rw [Bool.and_eq_true] at hparents
    exact authorized_edit hm (.schedule _ (hsc ▸ howner) (replaces_nothing hnew) hparents.2)
  dsimp only
  split
  · refine leaves_bind ?_ .nothing fun _ _ => hcreate _ rfl
    exact (readOnly_computeNextRunAt _ _ _).bind fun _ => keeps_pure _
  · exact leaves_bind (keeps_pure _) .nothing fun _ _ => hcreate _ rfl

theorem updateSchedule_leaves (hlinked : s.db.Linked) (fields : ScheduleUpdate) :
    ByMember user (ScheduleService.updateSchedule lib user id fields) s := by
  refine leaves_bind (readOnly_getAuthorizedSchedule _ _ _) .nothing fun sc hsc => ?_
  obtain ⟨hfound, o, ho, hm⟩ := getAuthorizedSchedule_owned hsc
  obtain ⟨hrow, rfl⟩ := Table.get?_eq_some_iff.1 hfound
  have hupdate : ∀ row : Schedule, row.id = sc.id → row.collectionId = sc.collectionId →
      row.createdBy = sc.createdBy → ByMember user (ScheduleRepository.update row) s := by
    intro row hid hcollection hcreator
    refine leaves_bind_readOnly (leaves_flush .nothing fun db h => ?_) fun _ => keeps_pure _
    obtain ⟨schedules, hu, rfl⟩ := ok_of_written h
    rw [updateRow_ok hu]
    refine authorized_edit hm (.schedule _ (hcollection ▸ ho) (fun q hq => ?_)
      (hcreator ▸ hlinked.scheduleCreators sc hrow))
    rw [hid, hfound] at hq
    cases hq
    exact hcollection.symm
  dsimp only
  split
  · split
    · refine leaves_bind ?_ .nothing fun _ _ => hupdate _ rfl rfl rfl
      exact (readOnly_computeNextRunAt _ _ _).bind fun _ => keeps_pure _
    · exact leaves_bind (keeps_pure _) .nothing fun _ _ => hupdate _ rfl rfl rfl
  · exact hupdate _ rfl rfl rfl

theorem deleteSchedule_leaves : ByMember user (ScheduleService.deleteSchedule user id) s := by
  refine leaves_bind (readOnly_getAuthorizedSchedule _ _ _) .nothing fun sc hsc => leaves_flush .nothing fun db h => ?_
  obtain ⟨hfound, o, ho, hm⟩ := getAuthorizedSchedule_owned hsc
  obtain ⟨schedules, hu, rfl⟩ := ok_of_written h
  rw [deleteRow_ok hu]
  exact authorized_edit hm (.removeSchedule sc (Table.get?_eq_some_iff.1 hfound).1 ho)

/-- The tasks of a run whose requests are of its collection, inserted one after the other. -/
theorem edits_insertTasks (run : TestRun) (tasks : List TestTask) {db db' : Database}
    (h : tasks.foldlM TestTaskRepository.insert db = .ok db') (ho : db.ownerOfCollection run.collectionId = some o)
    (hrun : ∀ t ∈ tasks, db.testRuns.get? t.testRunId = some run)
    (hrequest : ∀ t ∈ tasks, ∀ r, db.apiRequests.get? t.apiRequestId = some r →
      r.collectionId = run.collectionId) :
    Edits o db db' ∧ db' = { db with testTasks := db'.testTasks } := by
  induction tasks generalizing db with
  | nil =>
    cases h
    exact ⟨.refl, rfl⟩
  | cons t tasks ih =>
    rw [List.foldlM_cons] at h
    rw [List.forall_mem_cons] at hrun hrequest
    rcases hinsert : TestTaskRepository.insert db t with e | db₁
    · rw [hinsert] at h
      cases h
    rw [hinsert] at h
    obtain ⟨hparents, testTasks, hu, rfl⟩ := ok_of_required hinsert
    obtain ⟨hnew, rfl⟩ := insertRow_set hu
    rw [Bool.and_eq_true] at hparents
    obtain ⟨r, hr⟩ := Option.isSome_iff_exists.1 hparents.2
    obtain ⟨hrest, hdb⟩ := ih h ho hrun.2 hrequest.2
    exact ⟨.head (.testTask t run r ho hnew hrun.1 hr (hrequest.1 r hr)) hrest, hdb⟩

theorem collectionId_of_requestsOf {db : Database} {r : ApiRequest} (h : r ∈ db.requestsOf id) :
    db.apiRequests.get? r.id = some r ∧ r.collectionId = id := by
  rw [Database.requestsOf, List.mem_insertionSort, List.mem_filter, decide_eq_true_eq] at h
  exact ⟨get?_of_mem h.1, h.2⟩

theorem mem_assignIds {first : UUID} {tasks : List TestTask} {t : TestTask}
    (h : t ∈ TestTaskRepository.assignIds first tasks) :
    ∃ p ∈ tasks, t.testRunId = p.testRunId ∧ t.apiRequestId = p.apiRequestId := by
  obtain ⟨p, hp, rfl⟩ := List.mem_map.1 h
  exact ⟨p.1, List.fst_mem_of_mem_zipIdx hp, rfl, rfl⟩

/-- Writes to runs and their tasks. -/
structure RunEdits (o : UUID) (db db' : Database) : Prop where
  edits : Edits o db db'
  rest : db' = { db with testRuns := db'.testRuns, testTasks := db'.testTasks }

/-- The rows of a run are of the organization of its collection. -/
theorem insertRun_leaves {P : Database → Prop} {run : TestRun} {rows : List (Option ℕ × Option (Dict String String))}
    (hs : P s.db) (ho : s.db.ownerOfCollection id = some o) (hcollection : run.collectionId = id)
    (h : ∀ db, RunEdits o s.db db → P db) :
    Leaves P (do
      let testRun ← TestRunRepository.create run
      let createdTasks ← TestTaskRepository.bulkCreate (pendingTasks testRun.id (s.db.requestsOf id) rows)
      return (testRun, createdTasks)) s := by
  subst hcollection
  unfold TestRunRepository.create generateUuid7 TestRunRepository.insert
  refine leaves_andThen (leaves_generateIds ?_) fun created s' hcreate _ => ?_
  · refine leaves_bind readOnly_now hs fun at_ _ => ?_
    refine leaves_bind_readOnly (leaves_flush hs fun db hf => ?_) fun _ => keeps_pure _
    obtain ⟨hparents, testRuns, hu, rfl⟩ := ok_of_required hf
    obtain ⟨hnew, rfl⟩ := insertRow_set hu
    rw [Bool.and_eq_true] at hparents
    exact h _ ⟨.single (.testRun _ ho hnew hparents.2), rfl⟩
  · rw [bind_of_ok _ (generateIds_run 1), bind_of_ok _ now_run] at hcreate
    obtain ⟨u, s₁, hflush, hreturn⟩ := ok_of_bind hcreate
    cases hreturn
    obtain ⟨db, hdb, rfl⟩ := flush_ok hflush
    obtain ⟨hparents, testRuns, hu, rfl⟩ := ok_of_required hdb
    obtain ⟨hnew, rfl⟩ := insertRow_set hu
    rw [Bool.and_eq_true] at hparents
    set row : TestRun := { run with id := s.nextId, createdAt := s.now } with hrow
    have hrun : Edit o s.db { s.db with testRuns := s.db.testRuns.set row } :=
      .testRun row ho hnew hparents.2
    unfold TestTaskRepository.bulkCreate
    refine leaves_bind_readOnly (leaves_generateIds ?_) fun _ => keeps_pure _
    refine leaves_bind_readOnly (leaves_flush (h _ ⟨.single hrun, rfl⟩) fun db' hf => ?_) fun _ => keeps_pure _
    have htasks := edits_insertTasks row _ hf ho (fun t ht => ?_) fun t ht r hr => ?_
    · exact h _ ⟨.head hrun htasks.1, by rw [htasks.2]⟩
    · obtain ⟨p, hp, hid, -⟩ := mem_assignIds ht
      rw [hid, (testRunId_of_mem_pendingTasks hp).1]
      exact (Table.get?_set _ _ _).trans (if_pos rfl)
    · obtain ⟨p, hp, -, hid⟩ := mem_assignIds ht
      obtain ⟨q, hq, hqid⟩ := (testRunId_of_mem_pendingTasks hp).2
      rw [hid, hqid] at hr
      have hr : s.db.apiRequests.get? q.id = some r := hr
      obtain ⟨hfound, hcol⟩ := collectionId_of_requestsOf hq
      rw [hfound] at hr
      cases hr
      exact hcol

theorem leaves_of_keeps {α : Type} {P : Database → Prop} {m : ServiceM α} (hdb : Keeps Session.db m)
    (hm : Uncommitted m) (hs : P s.db) : Leaves P m s :=
  ⟨by rw [show (m s).2.db = s.db from hdb s]; exact hs, hm s⟩

theorem createRunFor_leaves {P : Database → Prop} {initiatedBy : UUID} {runType : TestRunType}
    {dataRows : Option (List (Dict String String))} (hs : P s.db)
    (h : ∀ o, s.db.ownerOfCollection id = some o → ∀ db, RunEdits o s.db db → P db) (hlinked : s.db.Linked) :
    Leaves P (TestRunService.createRunFor id initiatedBy runType dataRows) s := by
  refine leaves_andThen ?_ fun planned s' _ hs' => ?_
  · unfold TestRunService.planRun
    refine leaves_bind (readOnly_query _) hs fun requests hrequests => ?_
    obtain rfl := query_ok hrequests
    split
    · exact leaves_raise hs
    refine leaves_bind (readOnly_query _) hs fun collection hcollection => ?_
    obtain rfl := query_ok hcollection
    cases hc : s.db.collections.get? id with
    | none => exact leaves_bind (keeps_throw _) hs fun a ha => by cases ha
    | some c =>
      obtain ⟨hrow, rfl⟩ := Table.get?_eq_some_iff.1 hc
      obtain ⟨p, hp⟩ := Option.isSome_iff_exists.1 (hlinked.collections c hrow)
      have ho : s.db.ownerOfCollection c.id = some p.organizationId := by
        rw [Database.ownerOfCollection, hc, Option.bind_some, Database.ownerOfProject, hp]
        rfl
      refine leaves_bind (keeps_pure _) hs fun projectId _ => ?_
      refine leaves_bind (readOnly_query _) hs fun defined _ => ?_
      refine leaves_bind readOnly_now hs fun startedAt _ => ?_
      exact insertRun_leaves hs ho rfl (h _ ho)
  · -- what goes to the stream is not in the database
    have hcall : ∀ effect, Keeps Session.db (callRedis effect) := fun _ _ => rfl
    have hsend : Keeps Session.db (TestRunService.sendTasks planned.2) :=
      (hcall _).bind fun _ => keeps_forM (fun _ => hcall _) planned.2
    have huncommitted : Uncommitted (TestRunService.sendTasks planned.2) :=
      (uncommitted_callRedis _).bind fun _ => keeps_forM (fun _ => uncommitted_callRedis _) planned.2
    exact leaves_bind_readOnly (leaves_of_keeps hsend huncommitted hs') fun _ => keeps_pure _

/-- A run in the organization of the collection. -/
theorem createRun_leaves (hlinked : s.db.Linked) (dataRows : Option (List (Dict String String))) :
    ByMember user (TestRunService.createRun user id dataRows) s := by
  refine leaves_bind (readOnly_organizationIdForCollection _ _) .nothing fun o ho => ?_
  refine leaves_bind (readOnly_requireMembership _ _ _ _) .nothing fun member hmember => ?_
  refine createRunFor_leaves .nothing (fun o' ho' db hdb => ?_) hlinked
  rw [organizationIdForCollection_ok ho] at ho'
  cases ho'
  exact .edits (.inl (member_of_requireMembership hmember)) hdb.edits

end

end ApiTesting
