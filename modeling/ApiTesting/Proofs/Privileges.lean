import ApiTesting.Proofs.Subtrees

/-! What users who do not own an organization can do to it together: nothing they
send, in whatever order, grants anybody a role that administers it, removes anybody
but the one who asks, or deletes it. -/

namespace ApiTesting

open Keyed ServiceM Fallible

inductive OrganizationRequest
  | create (name slug : String)
  | listMine
  | on (organizationId : UUID) (op : Operation .organization)

def OrganizationRequest.apply (lib : Libraries) (currentUser : User) : OrganizationRequest → ServiceM Unit
  | .create name slug => do let _ ← OrganizationService.createOrganization currentUser name slug
  | .listMine => do let _ ← OrganizationService.listMyOrganizations currentUser
  | .on organizationId op => op.apply lib currentUser organizationId

/-- A request as it comes in, with what its transaction runs into. -/
structure IncomingRequest where
  user : User
  request : OrganizationRequest
  surroundings : Surroundings

def handle (lib : Libraries) (w : World) (r : IncomingRequest) : World :=
  ((getDb (r.request.apply lib r.user)).transact r.surroundings w).2

def handleAll (lib : Libraries) (w : World) (requests : List IncomingRequest) : World :=
  requests.foldl (handle lib) w

def Database.isOwner (db : Database) (organizationId userId : UUID) : Prop :=
  ∃ m, db.organizationMembers.get? (organizationId, userId) = some m ∧ m.role = .owner

/-- What one request of `requester` may make of an organization they do not own. -/
structure Confined (o requester : UUID) (db db' : Database) : Prop where
  granted : ∀ m ∈ db'.organizationMembers.rows, m.organizationId = o → m.role ∈ adminRoles →
    m ∈ db.organizationMembers.rows
  kept : ∀ m ∈ db.organizationMembers.rows, m.organizationId = o → m.userId ≠ requester →
    m ∈ db'.organizationMembers.rows
  organization : (db.organizations.get? o).isSome → (db'.organizations.get? o).isSome

/-! What a request does to the organizations and their members. -/

inductive Change (user : UUID) (db db' : Database) : Prop
  | organizations (h : ∀ o, (db.organizations.get? o).isSome → (db'.organizations.get? o).isSome)
      (hmembers : db'.organizationMembers = db.organizationMembers)
  | added {m : OrganizationMember}
      (h : ∀ o, (db.organizations.get? o).isSome → (db'.organizations.get? o).isSome)
      (hmembers : db.organizationMembers.insert? m = some db'.organizationMembers)
      (hrole : m.role ∉ adminRoles ∨ db.isOwner m.organizationId user ∨
        (db.organizations.get? m.organizationId).isNone)
  | byOwner {o : UUID} (howner : db.isOwner o user)
      (hmembers : ∀ m, m.organizationId ≠ o →
        (m ∈ db'.organizationMembers.rows ↔ m ∈ db.organizationMembers.rows))
      (h : ∀ o', o' ≠ o → (db.organizations.get? o').isSome → (db'.organizations.get? o').isSome)
  | left {o : UUID} (h : db'.organizations = db.organizations)
      (hmembers : db'.organizationMembers = db.organizationMembers.erase (o, user))

theorem Change.confined {db db' : Database} {o user : UUID} (h : Change user db db')
    (hnot : ¬ db.isOwner o user) (horg : (db.organizations.get? o).isSome) : Confined o user db db' := by
  cases h with
  | organizations h hmembers =>
    exact ⟨fun m hm _ _ => hmembers ▸ hm, fun m hm _ _ => hmembers ▸ hm, h o⟩
  | @added new h hmembers hrole =>
    obtain ⟨hrows, -⟩ := Table.rows_insert? hmembers
    refine ⟨fun m hm hmo hadmin => ?_, fun m hm _ _ => ?_, h o⟩
    · rw [hrows, List.mem_append, List.mem_singleton] at hm
      rcases hm with hm | rfl
      · exact hm
      · -- the new member is of this organization, so it was added by an administrator
        rw [hmo] at hrole
        rcases hrole with hrole | howner | hnone
        · exact absurd hadmin hrole
        · exact absurd howner hnot
        · rw [Option.isNone_iff_eq_none.1 hnone] at horg
          cases horg
    · rw [hrows]
      exact List.mem_append_left _ hm
  | @byOwner o' howner hmembers h =>
    have hne : o ≠ o' := by
      rintro rfl
      exact hnot howner
    exact ⟨fun m hm hmo _ => (hmembers m (hmo ▸ hne)).1 hm, fun m hm hmo _ => (hmembers m (hmo ▸ hne)).2 hm,
      h o hne⟩
  | @left o' h hmembers =>
    refine ⟨fun m hm _ _ => ?_, fun m hm _ hother => ?_, fun ho => h ▸ ho⟩
    · rw [hmembers] at hm
      exact (Table.mem_filter.1 hm).1
    · rw [hmembers]
      refine Table.mem_filter.2 ⟨hm, ?_⟩
      simp only [ne_eq, decide_eq_true_eq, OrganizationMember.key, Prod.mk.injEq, not_and]
      exact fun _ => hother

/-! One lemma for each service function, by the way it is put together. -/

/-- What the computation leaves is what one request may leave, and not committed yet. -/
structure Changes {α : Type} (user : UUID) (m : ServiceM α) (s : Session) : Prop where
  change : Change user s.db (m s).2.db
  committed : (m s).2.committed = s.committed

section
variable {α β : Type} {user : UUID} {s : Session} {m : ServiceM α}

theorem change_refl (db : Database) : Change user db db := .organizations (fun _ h => h) rfl

theorem changes_of_readOnly (hm : ReadOnly m) : Changes user m s := by
  have hs : (m s).2 = s := hm s
  constructor
  · rw [hs]
    exact change_refl s.db
  · rw [hs]

/-- The session it leaves is known. -/
theorem changes_of_state {s' : Session} (h : (m s).2 = s') (hchange : Change user s.db s'.db)
    (hcommitted : s'.committed = s.committed) : Changes user m s := by
  subst h
  exact ⟨hchange, hcommitted⟩

/-- After something was read. -/
theorem changes_bind {k : α → ServiceM β} (hm : ReadOnly m)
    (hk : ∀ a, m s = (.ok a, s) → Changes user (k a) s) : Changes user (m >>= k) s := by
  have hs : (m s).2 = s := hm s
  rcases h : m s with ⟨r, s'⟩
  rw [h] at hs
  obtain rfl : s' = s := hs
  cases r with
  | ok a => exact changes_of_state (by rw [bind_of_ok k h]) (hk a h).change (hk a h).committed
  | error e => exact changes_of_state (by rw [bind_of_error k h]) (change_refl s'.db) rfl

/-- Before something that is only returned. -/
theorem changes_bind_readOnly {k : α → ServiceM β} (hm : Changes user m s) (hk : ∀ a, ReadOnly (k a)) :
    Changes user (m >>= k) s := by
  refine changes_of_state ?_ hm.change hm.committed
  rcases h : m s with ⟨r, s'⟩
  cases r with
  | ok a =>
    rw [bind_of_ok k h]
    exact hk a s'
  | error e => rw [bind_of_error k h]

theorem changes_flush {f : Database → Except Exn Database}
    (hf : ∀ db, f s.db = .ok db → Change user s.db db) : Changes user (flush f) s := by
  refine ⟨?_, uncommitted_flush f s⟩
  unfold flush
  split
  · exact change_refl s.db
  · split
    · exact hf _ ‹_›
    · exact change_refl s.db

theorem changes_raise {e : AppError} {k : α → ServiceM β} : Changes user (raise e >>= k) s :=
  changes_bind (keeps_throw _) fun a h => by cases h

theorem changes_onIntegrityError {e : AppError} (hm : Changes user m s) :
    Changes user (onIntegrityError e m) s := by
  refine changes_of_state ?_ hm.change hm.committed
  rcases h : m s with ⟨r, s'⟩
  unfold onIntegrityError
  cases r with
  | ok a => rw [tryCatch_of_ok _ h]
  | error exc =>
    rw [tryCatch_of_error _ h]
    split <;> rfl

theorem isOwner_of_member {db : Database} {o : UUID} {member : OrganizationMember}
    (h : db.organizationMembers.get? (o, user) = some member)
    (hrole : (some [OrganizationRole.owner]).all fun l => member.role ∈ l) : db.isOwner o user :=
  ⟨member, h, by simpa using hrole⟩

theorem deleteOrganizationRow_change {db db' : Database} {org : Organization}
    (horg : org ∈ db.organizations.rows) (howner : db.isOwner org.id user)
    (h : deleteOrganizationRow db org = .ok db') : Change user db db' := by
  obtain ⟨hgood, hbad⟩ := removes_run (removes_organization horg)
  have hdb : db' = db.prune (db.organizationTree org) := by
    by_cases hok : db.unusedOrganization org
    · have hrun : deleteOrganizationRow db org = _ := hgood hok
      rw [hrun] at h
      cases h
      rfl
    · obtain ⟨e, he⟩ := hbad hok
      have hraise : deleteOrganizationRow db org = _ := he
      rw [hraise] at h
      cases h
  subst hdb
  refine .byOwner howner (fun m hm => ?_) fun o ho hsome => ?_
  · simp [Database.prune, Table.mem_filter, Database.organizationTree, hm]
  · obtain ⟨row, hrow⟩ := Option.isSome_iff_exists.1 hsome
    have hid := (Table.get?_eq_some_iff.1 hrow).2
    simp [Database.prune, Table.get?_filter, hrow, Database.organizationTree, hid, ho]

/-- Rows of another key are the same after a row was set. -/
theorem mem_set_iff {ρ κ : Type} [DecidableEq κ] {key : ρ → κ} {t : Table key} {r q : ρ}
    (h : key q ≠ key r) : q ∈ (t.set r).rows ↔ q ∈ t.rows := by
  have hiff : ∀ u : Table key, q ∈ u.rows ↔ u.get? (key q) = some q := fun u =>
    ⟨fun hq => Table.get?_eq_some_iff.2 ⟨hq, rfl⟩, fun hq => (Table.get?_eq_some_iff.1 hq).1⟩
  rw [hiff, hiff, Table.get?_set, if_neg h]

theorem updateRow_isSome {ρ : Type} {key : ρ → UUID} {t u : Table key} {r : ρ} (h : updateRow t r = .ok u)
    {k : UUID} (hk : (t.get? k).isSome) : (u.get? k).isSome := by
  rw [updateRow_ok h, Table.get?_set]
  split
  · rfl
  · exact hk

end

section
variable {s : Session} {currentUser : User} {lib : Libraries} {id : UUID}

theorem updateOrganization_changes (name slug : Option String) :
    Changes currentUser.id (OrganizationService.updateOrganization currentUser id name slug) s := by
  unfold OrganizationService.updateOrganization
  refine changes_bind (readOnly_requireMembership _ _ _ _) fun member _ => ?_
  refine changes_bind (readOnly_query _) fun x _ => ?_
  refine changes_bind (readOnly_existing _ _) fun org _ => ?_
  refine changes_bind_readOnly (changes_onIntegrityError ?_) fun _ => keeps_pure _
  refine changes_bind_readOnly (changes_flush fun db h => ?_) fun _ => keeps_pure _
  obtain ⟨organizations, hu, rfl⟩ := ok_of_checked h
  exact .organizations (fun o ho => updateRow_isSome hu ho) rfl

theorem deleteOrganization_changes :
    Changes currentUser.id (OrganizationService.deleteOrganization currentUser id) s := by
  unfold OrganizationService.deleteOrganization
  refine changes_bind (readOnly_requireMembership _ _ _ _) fun member hmember => ?_
  refine changes_bind (readOnly_query _) fun x hx => ?_
  refine changes_bind (readOnly_existing _ _) fun org horg => changes_flush fun db h => ?_
  obtain ⟨hget, hrole⟩ := requireMembership_ok hmember
  have hfound := existing_ok horg
  rw [query_ok hx] at hfound
  obtain ⟨hrow, rfl⟩ := Table.get?_eq_some_iff.1 hfound
  exact deleteOrganizationRow_change hrow (isOwner_of_member hget hrole) h

/-- A membership is inserted, or nothing is. -/
theorem addMemberRow_cases (o target : UUID) (role : OrganizationRole) (s : Session) :
    (OrganizationMemberRepository.addMember o target role s).2.db = s.db ∨
      ∃ members at_, s.db.organizationMembers.insert? ⟨o, target, role, at_⟩ = some members ∧
        (OrganizationMemberRepository.addMember o target role s).2.db =
          { s.db with organizationMembers := members } := by
  unfold OrganizationMemberRepository.addMember
  rw [bind_of_ok _ now_run]
  rcases h : flush (fun db => do
      require ((db.organizations.get? o).isSome && (db.users.get? target).isSome)
      let organizationMembers ← insertRow db.organizationMembers ⟨o, target, role, s.now⟩
      return { db with organizationMembers }) s with ⟨r, s'⟩
  have hdb : ∀ r' : Except Exn OrganizationMember, (r', s').2.db = s'.db := fun _ => rfl
  have hflush := h
  unfold flush at hflush
  split at hflush
  · obtain ⟨rfl, rfl⟩ := Prod.mk.inj hflush
    exact .inl (by rw [bind_of_error _ h])
  · split at hflush
    · rename_i db hf
      obtain ⟨rfl, rfl⟩ := Prod.mk.inj hflush
      obtain ⟨members, hu, rfl⟩ := ok_of_checked hf
      refine .inr ⟨members, s.now, insertRow_ok hu, ?_⟩
      rw [bind_of_ok _ h]
      rfl
    · obtain ⟨rfl, rfl⟩ := Prod.mk.inj hflush
      exact .inl (by rw [bind_of_error _ h])

theorem uncommitted_addMemberRow {o target : UUID} {role : OrganizationRole} :
    Uncommitted (OrganizationMemberRepository.addMember o target role) :=
  readOnly_now.uncommitted.bind fun _ => (uncommitted_flush _).bind fun _ => keeps_pure _

theorem addMember_changes (email : String) (role : OrganizationRole) :
    Changes currentUser.id (OrganizationService.addMember lib currentUser id email role) s := by
  unfold OrganizationService.addMember
  refine changes_bind (readOnly_requireMembership _ _ _ _) fun member hmember => ?_
  obtain ⟨hget, -⟩ := requireMembership_ok hmember
  dsimp only
  split
  · exact changes_raise
  rename_i hnot
  refine changes_bind (readOnly_query _) fun x _ => ?_
  refine changes_bind (readOnly_existing _ _) fun target _ => ?_
  refine changes_bind (readOnly_query _) fun y _ => ?_
  split
  · exact changes_raise
  refine changes_onIntegrityError ?_
  have hrole : role ∉ adminRoles ∨ s.db.isOwner id currentUser.id := by
    by_cases hrole : role ∈ adminRoles
    · refine .inr ⟨member, hget, ?_⟩
      by_contra hne
      exact hnot ⟨hrole, hne⟩
    · exact .inl hrole
  refine ⟨?_, uncommitted_addMemberRow s⟩
  rcases addMemberRow_cases id target.id role s with hsame | ⟨members, at_, hins, hdb⟩
  · rw [hsame]
    exact change_refl s.db
  · rw [hdb]
    exact .added (fun _ ho => ho) hins (hrole.imp_right .inl)

theorem readOnly_keepOwner (o : UUID) : ReadOnly (OrganizationService.keepOwner o) := by
  unfold OrganizationService.keepOwner
  refine (readOnly_query _).bind fun owners => ?_
  split
  · exact keeps_throw _
  · exact keeps_pure _

/-- What an owner does to one membership. -/
theorem byOwner_of_members {db : Database} {members : Table OrganizationMember.key}
    (howner : s.db.isOwner id currentUser.id) (hdb : db = { s.db with organizationMembers := members })
    (h : ∀ m, m.organizationId ≠ id → (m ∈ members.rows ↔ m ∈ s.db.organizationMembers.rows)) :
    Change currentUser.id s.db db := by
  subst hdb
  exact .byOwner howner h fun _ _ ho => ho

theorem updateMemberRole_changes (target : UUID) (role : OrganizationRole) :
    Changes currentUser.id (OrganizationService.updateMemberRole currentUser id target role) s := by
  unfold OrganizationService.updateMemberRole
  refine changes_bind (readOnly_requireMembership _ _ _ _) fun member hmember => ?_
  obtain ⟨hget, hrole⟩ := requireMembership_ok hmember
  have howner := isOwner_of_member hget hrole
  refine changes_bind (readOnly_query _) fun x hx => ?_
  refine changes_bind (readOnly_existing _ _) fun membership hm => ?_
  have hfound := existing_ok hm
  rw [query_ok hx] at hfound
  have hkey := (Table.get?_eq_some_iff.1 hfound).2
  have hset : Changes currentUser.id (OrganizationMemberRepository.updateRole membership role) s := by
    refine changes_bind_readOnly (changes_flush fun db h => ?_) fun _ => keeps_pure _
    obtain ⟨members, hu, rfl⟩ := ok_of_written h
    refine byOwner_of_members howner rfl fun m hm => ?_
    rw [updateRow_ok hu]
    refine mem_set_iff fun hkeys => hm ?_
    exact congrArg Prod.fst (hkeys.trans hkey)
  dsimp only
  split
  · exact changes_bind (readOnly_keepOwner _) fun _ _ => hset
  · exact hset

theorem removeMember_changes (target : UUID) :
    Changes currentUser.id (OrganizationService.removeMember currentUser id target) s := by
  unfold OrganizationService.removeMember
  -- the deletion of a membership that is the requester's own, or of an organization they own
  have hdelete : ∀ m : OrganizationMember, m.key = (id, currentUser.id) ∨
      m.organizationId = id ∧ s.db.isOwner id currentUser.id →
      Changes currentUser.id (OrganizationMemberRepository.removeMember m) s := by
    intro m hm
    refine changes_flush fun db h => ?_
    obtain ⟨members, hu, rfl⟩ := ok_of_written h
    rw [deleteRow_ok hu]
    rcases hm with hkey | ⟨rfl, howner⟩
    · exact .left rfl (by rw [hkey])
    · refine byOwner_of_members howner rfl fun q hq => ?_
      rw [Table.erase, Table.mem_filter]
      refine and_iff_left (decide_eq_true fun hkeys => hq ?_)
      exact congrArg Prod.fst hkeys
  have hrest : ∀ m : OrganizationMember, m.key = (id, currentUser.id) ∨
      m.organizationId = id ∧ s.db.isOwner id currentUser.id →
      Changes currentUser.id (do
        if m.role = .owner then OrganizationService.keepOwner id
        OrganizationMemberRepository.removeMember m) s := by
    intro m hm
    dsimp only
    split
    · exact changes_bind (readOnly_keepOwner _) fun _ _ => hdelete m hm
    · exact hdelete m hm
  dsimp only
  split
  · refine changes_bind (readOnly_requireMembership _ _ _ _) fun m hm => hrest m (.inl ?_)
    exact (Table.get?_eq_some_iff.1 (requireMembership_ok hm).1).2
  · refine changes_bind (readOnly_requireMembership _ _ _ _) fun member hmember => ?_
    obtain ⟨hget, hrole⟩ := requireMembership_ok hmember
    refine changes_bind (readOnly_query _) fun x hx => ?_
    refine changes_bind (readOnly_existing _ _) fun m hm => hrest m (.inr ⟨?_, isOwner_of_member hget hrole⟩)
    have hfound := existing_ok hm
    rw [query_ok hx] at hfound
    exact congrArg Prod.fst (Table.get?_eq_some_iff.1 hfound).2

/-- A new organization has an id of its own. -/
theorem create_cases (name slug : String) (s : Session) :
    (∃ e s', OrganizationRepository.create name slug s = (.error e, s') ∧ s'.db = s.db) ∨
      ∃ org s' organizations, OrganizationRepository.create name slug s = (.ok org, s') ∧
        s.db.organizations.insert? org = some organizations ∧ s'.db = { s.db with organizations } := by
  unfold OrganizationRepository.create generateUuid7
  rw [bind_of_ok _ (generateIds_run 1), bind_of_ok _ now_run]
  set s₁ : Session := { s with nextId := s.nextId + 1 } with hs₁
  set org : Organization := ⟨s.nextId, name, slug, s₁.now⟩ with horg
  by_cases hs : s₁.failed
  · refine .inl ⟨pendingRollbackError, s₁, bind_of_error _ ?_, rfl⟩
    unfold flush
    rw [if_pos hs]
  · have hs : s₁.failed = false := by simpa using hs
    rcases hf : (do
        require (OrganizationRepository.slugFree s₁.db org.id slug)
        let organizations ← insertRow s₁.db.organizations org
        return ({ s₁.db with organizations } : Database)) with e | db
    · exact .inl ⟨e, _, bind_of_error _ (flush_raise hs hf), rfl⟩
    · obtain ⟨organizations, hu, rfl⟩ := ok_of_checked hf
      exact .inr ⟨org, _, organizations, bind_of_ok _ (flush_run hs hf), insertRow_ok hu, rfl⟩

theorem createOrganization_changes (name slug : String) :
    Changes currentUser.id (OrganizationService.createOrganization currentUser name slug) s := by
  unfold OrganizationService.createOrganization
  refine changes_bind_readOnly (changes_onIntegrityError ⟨?_, ?_⟩) fun _ => keeps_pure _
  · rcases create_cases name slug s with ⟨e, s', hcreate, hdb⟩ | ⟨org, s', organizations, hcreate, hins, hdb⟩
    · rw [bind_of_error _ hcreate, hdb]
      exact change_refl s.db
    · rw [bind_of_ok _ hcreate]
      have hkept : ∀ o, (s.db.organizations.get? o).isSome → (organizations.get? o).isSome := by
        intro o ho
        rw [Table.get?_insert? hins]
        split
        · rfl
        · exact ho
      have hnone : (s.db.organizations.get? org.id).isNone := by
        rw [Option.isNone_iff_eq_none, Table.get?_eq_none_iff]
        exact (Table.rows_insert? hins).2
      have hmember : Change currentUser.id s.db
          (OrganizationMemberRepository.addMember org.id currentUser.id .owner s').2.db := by
        rcases addMemberRow_cases org.id currentUser.id .owner s' with hsame | ⟨members, at_, hnew, hadd⟩
        · rw [hsame, hdb]
          exact .organizations hkept rfl
        · rw [hadd, hdb]
          rw [hdb] at hnew
          exact .added hkept hnew (.inr (.inr hnone))
      rcases h : OrganizationMemberRepository.addMember org.id currentUser.id .owner s' with ⟨r, s''⟩
      rw [h] at hmember
      cases r with
      | ok a =>
        rw [bind_of_ok _ h]
        exact hmember
      | error e =>
        rw [bind_of_error _ h]
        exact hmember
  · have hcreate : Uncommitted (OrganizationRepository.create name slug) :=
      (uncommitted_generateIds 1).bind fun _ => readOnly_now.uncommitted.bind fun _ =>
        (uncommitted_flush _).bind fun _ => keeps_pure _
    exact (hcreate.bind fun _ => uncommitted_addMemberRow.bind fun _ => keeps_pure _) s

theorem createProject_changes (name : String) (description : Option String) :
    Changes currentUser.id (ProjectService.createProject currentUser id name description) s := by
  unfold ProjectService.createProject ProjectRepository.create generateUuid7
  refine changes_bind (readOnly_requireMembership _ _ _ _) fun _ _ => ?_
  have hflush : ∀ (s' : Session) (p : Project), Changes currentUser.id (do
      flush fun db => do
        require ((db.organizations.get? id).isSome && (db.users.get? currentUser.id).isSome)
        let projects ← insertRow db.projects p
        return { db with projects }
      return p) s' := by
    intro s' p
    refine changes_bind_readOnly (changes_flush fun db h => ?_) fun _ => keeps_pure _
    obtain ⟨projects, -, rfl⟩ := ok_of_checked h
    exact .organizations (fun _ ho => ho) rfl
  obtain ⟨hchange, hcommitted⟩ := hflush { s with nextId := s.nextId + 1 }
    ⟨s.nextId, id, name, description, currentUser.id, s.now⟩
  constructor
  · rw [bind_of_ok _ (generateIds_run 1), bind_of_ok _ now_run]
    exact hchange
  · rw [bind_of_ok _ (generateIds_run 1), bind_of_ok _ now_run]
    exact hcommitted

/-! Every request, and every sequence of them. -/

theorem apply_changes (lib : Libraries) (currentUser : User) (request : OrganizationRequest) :
    Changes currentUser.id (request.apply lib currentUser) s := by
  cases request with
  | create name slug => exact changes_bind_readOnly (createOrganization_changes name slug) fun _ => keeps_pure _
  | listMine =>
    have hread : ReadOnly (OrganizationService.listMyOrganizations currentUser) := readOnly_query _
    exact changes_of_readOnly (hread.bind fun _ => keeps_pure ())
  | on id op =>
    cases op with
    | getOrganization =>
      exact changes_of_readOnly (((readOnly_requireMembership _ _ _ _).bind fun _ =>
        (readOnly_query _).bind fun _ => (readOnly_existing _ _).bind fun _ => keeps_pure _).bind
        fun _ => keeps_pure _)
    | updateOrganization name slug =>
      exact changes_bind_readOnly (updateOrganization_changes name slug) fun _ => keeps_pure _
    | deleteOrganization => exact deleteOrganization_changes
    | listMembers =>
      exact changes_of_readOnly (((readOnly_requireMembership _ _ _ _).bind
        fun _ => readOnly_query _).bind fun _ => keeps_pure _)
    | addMember email role => exact changes_bind_readOnly (addMember_changes email role) fun _ => keeps_pure _
    | updateMemberRole target role =>
      exact changes_bind_readOnly (updateMemberRole_changes target role) fun _ => keeps_pure _
    | removeMember target => exact removeMember_changes target
    | createProject name description =>
      exact changes_bind_readOnly (createProject_changes name description) fun _ => keeps_pure _
    | listProjects =>
      exact changes_of_readOnly (((readOnly_requireMembership _ _ _ _).bind
        fun _ => readOnly_query _).bind fun _ => keeps_pure _)

end

/-- A request is committed as a whole, or not at all. -/
theorem handle_change (lib : Libraries) (w : World) (r : IncomingRequest) :
    Change r.user.id w.db (handle lib w r).db := by
  obtain ⟨hchange, hcommitted⟩ := apply_changes lib r.user
    (s := w.session r.surroundings) r.request
  rcases committed_getDb hcommitted with hsame | hdb
  · rw [show (handle lib w r).db = w.db from hsame]
    exact change_refl w.db
  · rw [show (handle lib w r).db = _ from hdb]
    exact hchange

theorem confined_handle (lib : Libraries) {w : World} {r : IncomingRequest} {o : UUID}
    (hnot : ¬ w.db.isOwner o r.user.id) (horg : (w.db.organizations.get? o).isSome) :
    Confined o r.user.id w.db (handle lib w r).db := (handle_change lib w r).confined hnot horg

/-- Whoever is no owner before a request is none after it. -/
theorem Confined.not_isOwner {db db' : Database} {o requester u : UUID} (h : Confined o requester db db')
    (hu : ¬ db.isOwner o u) : ¬ db'.isOwner o u := by
  rintro ⟨m, hm, hrole⟩
  obtain ⟨hrow, hkey⟩ := Table.get?_eq_some_iff.1 hm
  have hadmin : m.role ∈ adminRoles := by
    rw [hrole]
    exact List.mem_cons_self
  have hold := h.granted m hrow (congrArg Prod.fst hkey) hadmin
  exact hu ⟨m, Table.get?_eq_some_iff.2 ⟨hold, hkey⟩, hrole⟩

/-- Requests of users who do not own the organization, one after the other. -/
theorem confined_handleAll (lib : Libraries) {w : World} (requests : List IncomingRequest) {o : UUID}
    (hnot : ∀ r ∈ requests, ¬ w.db.isOwner o r.user.id) (horg : (w.db.organizations.get? o).isSome) :
    (∀ m ∈ (handleAll lib w requests).db.organizationMembers.rows, m.organizationId = o →
      m.role ∈ adminRoles → m ∈ w.db.organizationMembers.rows) ∧
    ((handleAll lib w requests).db.organizations.get? o).isSome := by
  induction requests generalizing w with
  | nil => exact ⟨fun _ hm _ _ => hm, horg⟩
  | cons r requests ih =>
    have hr := confined_handle lib (hnot r List.mem_cons_self) horg
    obtain ⟨hgranted, hkept⟩ := ih (w := handle lib w r)
      (fun q hq => hr.not_isOwner (hnot q (List.mem_cons_of_mem r hq))) (hr.organization horg)
    refine ⟨fun m hm hmo hadmin => ?_, hkept⟩
    exact hr.granted m (hgranted m hm hmo hadmin) hmo hadmin

/-- Users who do not own an organization cannot, by any sequence of requests, make
anybody its owner or administrator, delete it, or with one request remove a member
other than the one who asks. -/
theorem no_escalation (lib : Libraries) (w : World) (o : UUID) (requests : List IncomingRequest)
    (horg : (w.db.organizations.get? o).isSome)
    (hnot : ∀ r ∈ requests, ¬ w.db.isOwner o r.user.id) :
    (∀ m ∈ (handleAll lib w requests).db.organizationMembers.rows, m.organizationId = o →
      m.role ∈ adminRoles → m ∈ w.db.organizationMembers.rows) ∧
    ((handleAll lib w requests).db.organizations.get? o).isSome ∧
    ∀ pre r post, requests = pre ++ r :: post →
      Confined o r.user.id (handleAll lib w pre).db (handleAll lib w (pre ++ [r])).db := by
  obtain ⟨hgranted, hkept⟩ := confined_handleAll lib requests hnot horg
  refine ⟨hgranted, hkept, ?_⟩
  rintro pre r post rfl
  obtain ⟨hbefore, horgBefore⟩ := confined_handleAll lib pre
    (fun q hq => hnot q (List.mem_append_left _ hq)) horg
  rw [handleAll, handleAll, List.foldl_append]
  refine confined_handle lib ?_ horgBefore
  rintro ⟨m, hm, hrole⟩
  obtain ⟨hrow, hkey⟩ := Table.get?_eq_some_iff.1 hm
  have hadmin : m.role ∈ adminRoles := by
    rw [hrole]
    exact List.mem_cons_self
  refine hnot r (by simp) ⟨m, Table.get?_eq_some_iff.2 ⟨?_, hkey⟩, hrole⟩
  exact hbefore m hrow (congrArg Prod.fst hkey) hadmin

/-- The organization with an administrator besides its owner. -/
def adminTenant : Database :=
  { tenant with
    users := (Table.empty.set ⟨3, "admin@acme.test"⟩).set ⟨7, "eve@example.com"⟩
    organizationMembers := tenant.organizationMembers.set ⟨1, 3, .admin, 0⟩ }

/-- The administrator lets somebody in, who then tries to own and to delete the organization. -/
def adminRequests : List IncomingRequest :=
  [⟨⟨3, "admin@acme.test"⟩, .on 1 (.addMember "eve@example.com" .member), calm⟩,
    ⟨⟨7, "eve@example.com"⟩, .on 1 (.updateMemberRole 7 .owner), calm⟩,
    ⟨⟨7, "eve@example.com"⟩, .on 1 .deleteOrganization, calm⟩]

theorem no_escalation_adminTenant :
    ((handleAll plainLibraries ⟨adminTenant, .empty, 10⟩ adminRequests).db.organizations.get? 1).isSome := by
  refine (no_escalation plainLibraries ⟨adminTenant, .empty, 10⟩ 1 adminRequests rfl ?_).2.1
  have hadmin : adminTenant.organizationMembers.get? (1, 3) = some ⟨1, 3, .admin, 0⟩ := rfl
  have houtside : adminTenant.organizationMembers.get? (1, 7) = none := rfl
  simp only [adminRequests, List.mem_cons, List.not_mem_nil, or_false]
  rintro r (rfl | rfl | rfl) ⟨m, hm, hrole⟩
  · rw [hadmin] at hm
    cases hm
    cases hrole
  · rw [houtside] at hm
    cases hm
  · rw [houtside] at hm
    cases hm

end ApiTesting
