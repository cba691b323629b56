import ApiTesting.Proofs.Subtrees
import ApiTesting.Spec.Endpoints

/-! Members and the secrets of a project. A secret is redacted in the whole database,
and every request of a member turns out to do to the redacted database what it does to
the database itself, with the same response: so two databases that agree once their
secrets are redacted cannot be told apart. -/

namespace ApiTesting

open Keyed ServiceM Fallible

/-- Two databases with the same variables, whose values may differ where they are secret. -/
structure SecretsApart (db₁ db₂ : Database) : Prop where
  others : db₂ = { db₁ with environmentVariables := db₂.environmentVariables }
  rows : List.Forall₂
    (fun v₁ v₂ => v₂ = { v₁ with value := v₂.value } ∧ (v₁.isSecret = false → v₂.value = v₁.value))
    db₁.environmentVariables.rows db₂.environmentVariables.rows

def Database.secretRows (db : Database) : List EnvironmentVariable :=
  db.environmentVariables.rows.filter EnvironmentVariable.isSecret

/-- The project a request is about. -/
def VariableRequest.projectId? (db : Database) : VariableRequest → Option UUID
  | .create projectId _ _ _ => some projectId
  | .list projectId => some projectId
  | .get variableId => (db.environmentVariables.get? variableId).map EnvironmentVariable.projectId
  | .update variableId _ => (db.environmentVariables.get? variableId).map EnvironmentVariable.projectId
  | .delete variableId => (db.environmentVariables.get? variableId).map EnvironmentVariable.projectId

/-- In the organization of that project, the user has no role but that of a member. -/
def Database.AsMember (db : Database) (user : User) (request : VariableRequest) : Prop :=
  ∀ projectId ∈ request.projectId? db, ∀ p ∈ db.projects.get? projectId,
    ∀ m ∈ db.organizationMembers.get? (p.organizationId, user.id), m.role = .member

/-- Each request is, by the time it is answered, one of a member. -/
def IssuedByMembers : World → List (Incoming VariableRequest) → Prop
  | _, [] => True
  | w, r :: requests =>
    w.db.AsMember r.user r.request ∧ IssuedByMembers (answer VariableRequest.respond w r).2 requests

/-! The redacted database. -/

def EnvironmentVariable.redacted (v : EnvironmentVariable) : EnvironmentVariable :=
  { v with value := if v.isSecret then "" else v.value }

def Database.redacted (db : Database) : Database :=
  { db with environmentVariables := db.environmentVariables.map .redacted fun _ => rfl }

def World.redacted (w : World) : World := { w with db := w.db.redacted }

def Session.redacted (s : Session) : Session :=
  { s with db := s.db.redacted, committed := s.committed.redacted }

theorem redacted_of_plain {v : EnvironmentVariable} (h : v.isSecret = false) : v.redacted = v := by
  cases v
  simp_all [EnvironmentVariable.redacted]

/-- What is rendered of a variable is what is rendered of it redacted. -/
theorem ofRow_redacted (v : EnvironmentVariable) :
    EnvironmentVariableRead.ofRow v.redacted = EnvironmentVariableRead.ofRow v := by
  unfold EnvironmentVariableRead.ofRow EnvironmentVariableRead.maskSecretValue EnvironmentVariable.redacted
  cases h : v.isSecret <;> rfl

theorem map_redacted_of_apart {l₁ l₂ : List EnvironmentVariable}
    (h : List.Forall₂ (fun v₁ v₂ => v₂ = { v₁ with value := v₂.value } ∧
      (v₁.isSecret = false → v₂.value = v₁.value)) l₁ l₂) :
    l₁.map EnvironmentVariable.redacted = l₂.map EnvironmentVariable.redacted := by
  induction h with
  | nil => rfl
  | @cons v₁ v₂ l₁ l₂ hv _ ih =>
    obtain ⟨hsame, hplain⟩ := hv
    have : v₁.redacted = v₂.redacted := by
      rw [hsame]
      unfold EnvironmentVariable.redacted
      cases hsecret : v₁.isSecret with
      | true => simp
      | false => simp [hplain hsecret]
    rw [List.map_cons, List.map_cons, this, ih]

theorem SecretsApart.redacted {db₁ db₂ : Database} (h : SecretsApart db₁ db₂) :
    db₁.redacted = db₂.redacted := by
  rw [h.others]
  unfold Database.redacted
  congr 1
  exact Table.ext (map_redacted_of_apart h.rows)

theorem get?_redacted (db : Database) (id : UUID) :
    db.redacted.environmentVariables.get? id = (db.environmentVariables.get? id).map .redacted :=
  Table.get?_map (f := EnvironmentVariable.redacted) _ (fun _ => rfl) id

theorem asMember_redacted {db : Database} {user : User} {request : VariableRequest} :
    db.redacted.AsMember user request ↔ db.AsMember user request := by
  have hproject : request.projectId? db.redacted = request.projectId? db := by
    cases request with
    | create _ _ _ _ => rfl
    | list _ => rfl
    | _ variableId =>
      simp only [VariableRequest.projectId?, get?_redacted, Option.map_map]
      rfl
  unfold Database.AsMember
  rw [hproject]
  rfl

/-! From a state, a computation that is blind to secrets does the same to the redacted
state, leaves the secrets themselves alone, and commits nothing. -/

structure Blind {α γ : Type} (out : α → γ) (m : ServiceM α) (m' : ServiceM γ) (s : Session) : Prop where
  mirrors : Mirrors Session.redacted out m m' s
  secrets : KeepsFrom (fun s => s.db.secretRows) m s
  committed : KeepsFrom Session.committed m s

section
variable {α β γ δ : Type} {out : α → γ} {m : ServiceM α} {m' : ServiceM γ} {s : Session}

theorem blind_pure (a : α) : Blind out (pure a) (pure (out a)) s := ⟨mirrors_pure a, rfl, rfl⟩

theorem blind_throw (e : Exn) : Blind out (throw e) (throw e) s := ⟨mirrors_throw e, rfl, rfl⟩

theorem Blind.bind {out' : β → δ} {k : α → ServiceM β} {k' : γ → ServiceM δ} (hm : Blind out m m' s)
    (hk : ∀ a s', m s = (.ok a, s') → Blind out' (k a) (k' (out a)) s') :
    Blind out' (m >>= k) (m' >>= k') s where
  mirrors := hm.mirrors.bind fun a s' h => (hk a s' h).mirrors
  secrets := hm.secrets.bind fun a s' h => (hk a s' h).secrets
  committed := hm.committed.bind fun a s' h => (hk a s' h).committed

/-- After something that the redaction does not touch. -/
theorem Blind.bind_same {n : ServiceM α} {out' : β → δ} {k : α → ServiceM β} {k' : α → ServiceM δ}
    (hm : Blind id m n s) (hk : ∀ a s', m s = (.ok a, s') → Blind out' (k a) (k' a) s') :
    Blind out' (m >>= k) (n >>= k') s := hm.bind hk

theorem Blind.onIntegrityError (e : AppError) (hm : Blind out m m' s) :
    Blind out (onIntegrityError e m) (onIntegrityError e m') s := by
  have handler : ∀ exc s', Blind out (if exc.cls = .integrity then raise e else throw exc : ServiceM α)
      (if exc.cls = .integrity then raise e else throw exc : ServiceM γ) s' := by
    intro exc s'
    split
    · exact blind_throw _
    · exact blind_throw _
  exact ⟨hm.mirrors.tryCatch fun exc s' _ => (handler exc s').mirrors,
    hm.secrets.tryCatch fun exc s' _ => (handler exc s').secrets,
    hm.committed.tryCatch fun exc s' _ => (handler exc s').committed⟩

theorem blind_query {f : Database → α} {f' : Database → γ} (h : f' s.db.redacted = out (f s.db)) :
    Blind out (query f) (query f') s := by
  constructor
  · unfold Mirrors query
    cases hs : s.failed with
    | true => simp [Session.redacted, hs, Except.map]
    | false => simp [Session.redacted, hs, Except.map, h]
  · exact congrArg (fun s : Session => s.db.secretRows) (readOnly_query f s)
  · exact congrArg Session.committed (readOnly_query f s)

theorem blind_query_same {f : Database → α} (h : f s.db.redacted = f s.db) :
    Blind id (query f) (query f) s := blind_query h

theorem blind_existing (e : AppError) (x : Option α) :
    Blind out (existing e x) (existing e (x.map out)) s := by
  cases x with
  | none => exact blind_throw _
  | some a => exact blind_pure a

theorem blind_existing_same (e : AppError) (x : Option α) : Blind id (existing e x) (existing e x) s := by
  cases x with
  | none => exact blind_throw _
  | some a => exact blind_pure a

theorem blind_flush {f f' : Database → Except Exn Database}
    (h : f' s.db.redacted = (f s.db).map Database.redacted)
    (hsecrets : ∀ db, f s.db = .ok db → db.secretRows = s.db.secretRows) :
    Blind id (flush f) (flush f') s := by
  constructor
  · unfold Mirrors flush
    cases hs : s.failed with
    | true => simp [Session.redacted, hs, Except.map]
    | false =>
      cases hf : f s.db with
      | error e => simp [Session.redacted, hs, h, hf, Except.map]
      | ok db => simp [Session.redacted, hs, h, hf, Except.map]
  · unfold KeepsFrom flush
    split
    · rfl
    · split
      · exact hsecrets _ ‹_›
      · rfl
  · exact uncommitted_flush f s

end

/-! What the service reads. -/

section
variable {s s' : Session} {user : User}

theorem blind_organizationIdForProject (projectId : UUID) :
    Blind id (EnvironmentVariableService.organizationIdForProject projectId)
      (EnvironmentVariableService.organizationIdForProject projectId) s :=
  (blind_query_same rfl).bind_same fun p _ _ =>
    (blind_existing_same _ p).bind_same fun _ _ _ => blind_pure _

theorem blind_requireMembership (organizationId userId : UUID) (roles : Option (List OrganizationRole))
    (e : AppError) :
    Blind id (requireMembership organizationId userId roles e)
      (requireMembership organizationId userId roles e) s := by
  refine (blind_query_same rfl).bind_same fun m _ _ => ?_
  refine (blind_existing_same _ m).bind_same fun membership _ _ => ?_
  split
  · exact blind_pure membership
  · exact blind_throw _

theorem blind_getAuthorizedVariable (variableId : UUID) :
    Blind (fun p => (p.1.redacted, p.2)) (EnvironmentVariableService.getAuthorizedVariable user variableId)
      (EnvironmentVariableService.getAuthorizedVariable user variableId) s := by
  refine (blind_query (get?_redacted _ variableId)).bind fun x _ _ => ?_
  refine (blind_existing _ x).bind fun v _ _ => ?_
  refine (blind_organizationIdForProject v.projectId).bind_same fun organizationId _ _ => ?_
  refine (blind_requireMembership organizationId user.id none _).bind_same fun membership _ _ => ?_
  exact blind_pure (v, membership.role)

/-- The role of the user in the organization of the project. -/
def Database.HasRole (db : Database) (user : User) (projectId : UUID) (role : OrganizationRole) : Prop :=
  ∃ p ∈ db.projects.get? projectId,
    ∃ m ∈ db.organizationMembers.get? (p.organizationId, user.id), m.role = role

theorem hasRole_of_membership {projectId organizationId : UUID} {membership : OrganizationMember}
    {e : AppError} {s₁ s₂ : Session}
    (ho : EnvironmentVariableService.organizationIdForProject projectId s = (.ok organizationId, s₁))
    (hm : requireMembership organizationId user.id none e s₁ = (.ok membership, s₂)) :
    s₂ = s ∧ s.db.HasRole user projectId membership.role := by
  obtain ⟨x, s₃, hx, hfound⟩ := ok_of_bind ho
  obtain rfl := (readOnly_query _).same hx
  obtain ⟨p, s₄, hp, hreturn⟩ := ok_of_bind hfound
  obtain rfl := (readOnly_existing _ _).same hp
  cases hreturn
  obtain rfl := (readOnly_requireMembership _ _ _ _).same hm
  have hproject := existing_ok hp
  rw [query_ok hx] at hproject
  exact ⟨rfl, p, hproject, membership, (requireMembership_ok hm).1, rfl⟩

theorem getAuthorizedVariable_ok {variableId : UUID} {v : EnvironmentVariable} {role : OrganizationRole}
    (h : EnvironmentVariableService.getAuthorizedVariable user variableId s = (.ok (v, role), s')) :
    s' = s ∧ s.db.environmentVariables.get? variableId = some v ∧ s.db.HasRole user v.projectId role := by
  obtain ⟨x, s₁, hx, hfound⟩ := ok_of_bind h
  obtain rfl := (readOnly_query _).same hx
  obtain ⟨w, s₂, hw, hread⟩ := ok_of_bind hfound
  obtain rfl := (readOnly_existing _ _).same hw
  obtain ⟨organizationId, s₃, ho, hknown⟩ := ok_of_bind hread
  obtain ⟨membership, s₄, hm, hreturn⟩ := ok_of_bind hknown
  cases hreturn
  have hvariable := existing_ok hw
  rw [query_ok hx] at hvariable
  obtain ⟨hs, hrole⟩ := hasRole_of_membership ho hm
  exact ⟨hs, hvariable, hrole⟩

theorem not_admin_of_hasRole {request : VariableRequest} {projectId : UUID} {role : OrganizationRole}
    (hmember : s.db.AsMember user request) (hproject : request.projectId? s.db = some projectId)
    (h : s.db.HasRole user projectId role) : role ∉ adminRoles := by
  obtain ⟨p, hp, m, hm, rfl⟩ := h
  rw [hmember projectId hproject p hp m hm]
  decide

/-- A member gets at a variable as one who is no administrator. -/
theorem getAuthorizedVariable_member {request : VariableRequest} {variableId : UUID} {v : EnvironmentVariable}
    {role : OrganizationRole}
    (hrequest : request.projectId? s.db =
      (s.db.environmentVariables.get? variableId).map EnvironmentVariable.projectId)
    (hmember : s.db.AsMember user request)
    (h : EnvironmentVariableService.getAuthorizedVariable user variableId s = (.ok (v, role), s')) :
    s' = s ∧ s.db.environmentVariables.get? variableId = some v ∧ role ∉ adminRoles := by
  obtain ⟨hs, hfound, hrole⟩ := getAuthorizedVariable_ok h
  have hproject : request.projectId? s.db = some v.projectId := by
    rw [hrequest, hfound]
    rfl
  exact ⟨hs, hfound, not_admin_of_hasRole hmember hproject hrole⟩

end

/-! What it writes: rows that are not secret, in place of rows that were not. -/

theorem keyFree_redacted (db : Database) (v : EnvironmentVariable) :
    EnvironmentVariableRepository.keyFree db.redacted v = EnvironmentVariableRepository.keyFree db v := by
  simp only [EnvironmentVariableRepository.keyFree, Database.redacted, Table.map, List.all_map]
  rfl

/-- A statement that writes the variables, under a constraint. -/
def writeVariables (check : Database → Bool)
    (write : Table EnvironmentVariable.id → Except Exn (Table EnvironmentVariable.id)) (db : Database) :
    Except Exn Database := do
  require (check db)
  let environmentVariables ← write db.environmentVariables
  return { db with environmentVariables }

theorem writeVariables_eq (check : Database → Bool)
    (write : Table EnvironmentVariable.id → Except Exn (Table EnvironmentVariable.id)) (db : Database) :
    writeVariables check write db =
      if check db then (write db.environmentVariables).map fun t => { db with environmentVariables := t }
      else .error integrityError := by
  unfold writeVariables
  cases check db with
  | false => rfl
  | true => cases write db.environmentVariables <;> rfl

section
variable {s : Session} {v : EnvironmentVariable}

theorem blind_write (check : Database → Bool)
    (write : Table EnvironmentVariable.id → Except Exn (Table EnvironmentVariable.id))
    (hcheck : check s.db.redacted = check s.db)
    (hwrite : write s.db.redacted.environmentVariables =
      (write s.db.environmentVariables).map fun t => t.map .redacted fun _ => rfl)
    (hsecrets : ∀ t, write s.db.environmentVariables = .ok t →
      t.rows.filter EnvironmentVariable.isSecret = s.db.secretRows) :
    Blind id (flush (writeVariables check write)) (flush (writeVariables check write)) s := by
  refine blind_flush ?_ fun db hdb => ?_
  · rw [writeVariables_eq, writeVariables_eq, hcheck, hwrite]
    cases check s.db with
    | false => rfl
    | true => cases write s.db.environmentVariables <;> rfl
  · obtain ⟨t, ht, rfl⟩ := ok_of_checked hdb
    exact hsecrets t ht

theorem insertRow_redacted (db : Database) (hv : v.isSecret = false) :
    insertRow db.redacted.environmentVariables v =
      (insertRow db.environmentVariables v).map fun t => t.map .redacted fun _ => rfl := by
  have := Table.insert?_map (f := EnvironmentVariable.redacted) db.environmentVariables (fun _ => rfl) v
  rw [redacted_of_plain hv] at this
  unfold insertRow
  rw [show db.redacted.environmentVariables.insert? v = _ from this]
  cases db.environmentVariables.insert? v <;> rfl

theorem updateRow_redacted (db : Database) (hv : v.isSecret = false) :
    updateRow db.redacted.environmentVariables v =
      (updateRow db.environmentVariables v).map fun t => t.map .redacted fun _ => rfl := by
  have := Table.set_map (f := EnvironmentVariable.redacted) db.environmentVariables (fun _ => rfl) v
  rw [redacted_of_plain hv] at this
  unfold updateRow
  rw [get?_redacted, Option.isSome_map, show db.redacted.environmentVariables.set v = _ from this]
  split <;> rfl

theorem blind_create (projectId : UUID) (key value : String) :
    Blind id (EnvironmentVariableRepository.create projectId key value false)
      (EnvironmentVariableRepository.create projectId key value false) s := by
  refine Blind.bind_same (m := now) ⟨rfl, rfl, rfl⟩ fun createdAt s₁ _ => ?_
  refine Blind.bind_same (m := generateUuid7) ⟨rfl, rfl, rfl⟩ fun id s₂ _ => ?_
  refine Blind.bind_same ?_ fun _ _ _ => blind_pure _
  let created : EnvironmentVariable := ⟨id, projectId, key, value, false, createdAt, createdAt⟩
  refine blind_write
    (fun db => (db.projects.get? projectId).isSome && EnvironmentVariableRepository.keyFree db created)
    (fun t => insertRow t created) ?_ (insertRow_redacted s₂.db rfl) fun t ht => ?_
  · rw [keyFree_redacted]
    rfl
  · rw [(Table.rows_insert? (insertRow_ok ht)).1, List.filter_append]
    exact List.append_nil _

theorem blind_update {updated : EnvironmentVariable} {variableId : UUID}
    (hfound : s.db.environmentVariables.get? variableId = some v) (hid : updated.id = v.id)
    (hv : v.isSecret = false) (hupdated : updated.isSecret = false) :
    Blind id (EnvironmentVariableRepository.update v updated)
      (EnvironmentVariableRepository.update v updated) s := by
  unfold EnvironmentVariableRepository.update
  split
  · exact blind_pure _
  · refine Blind.bind_same (m := now) ⟨rfl, rfl, rfl⟩ fun updatedAt s₁ hnow => ?_
    obtain rfl := readOnly_now.same hnow
    refine Blind.bind_same ?_ fun _ _ _ => blind_pure _
    let row : EnvironmentVariable := { updated with updatedAt }
    refine blind_write (fun db => EnvironmentVariableRepository.keyFree db row) (fun t => updateRow t row)
      (keyFree_redacted _ _) (updateRow_redacted _ hupdated) fun t ht => ?_
    rw [updateRow_ok ht]
    refine Table.filter_rows_set hupdated fun q hq hkey => ?_
    -- the row in whose place it is put is the one that was read
    obtain ⟨hrow, rfl⟩ := Table.get?_eq_some_iff.1 hfound
    obtain rfl := List.inj_on_of_nodup_map s₁.db.environmentVariables.nodup hq hrow (hkey.trans hid)
    exact hv

end

/-! The endpoints. -/

section
variable {s : Session} {user : User}

theorem Blind.render {α γ : Type} {out : α → α} {m m' : ServiceM α} (render : α → γ)
    (hrender : ∀ a, render (out a) = render a) (hm : Blind out m m' s) :
    Blind id (render <$> m) (render <$> m') s := by
  rw [map_eq_pure_bind, map_eq_pure_bind]
  refine hm.bind fun a _ _ => ?_
  rw [hrender]
  exact blind_pure _

theorem blind_createVariable (projectId : UUID) (key value : String) (isSecret : Bool)
    (hmember : s.db.AsMember user (.create projectId key value isSecret)) :
    Blind id (EnvironmentVariableService.createVariable user projectId key value isSecret)
      (EnvironmentVariableService.createVariable user projectId key value isSecret) s := by
  refine (blind_organizationIdForProject projectId).bind_same fun organizationId s₁ ho => ?_
  refine (blind_requireMembership organizationId user.id none _).bind_same fun membership s₂ hm => ?_
  obtain ⟨rfl, hrole⟩ := hasRole_of_membership ho hm
  have hnot := not_admin_of_hasRole hmember rfl hrole
  cases isSecret with
  | true =>
    rw [if_pos ⟨rfl, hnot⟩]
    exact blind_throw _
  | false =>
    rw [if_neg (by simp)]
    exact (blind_create projectId key value).onIntegrityError _

theorem blind_listVariables (projectId : UUID) :
    Blind (List.map .redacted) (EnvironmentVariableService.listVariables user projectId)
      (EnvironmentVariableService.listVariables user projectId) s := by
  refine (blind_organizationIdForProject projectId).bind_same fun organizationId s₁ _ => ?_
  refine (blind_requireMembership organizationId user.id none _).bind_same fun membership s₂ _ => ?_
  refine blind_query ?_
  have hrows : s₂.db.redacted.environmentVariables.rows.filter (fun v => v.projectId = projectId) =
      (s₂.db.environmentVariables.rows.filter fun v => v.projectId = projectId).map .redacted := by
    simp only [Database.redacted, Table.map, List.filter_map]
    rfl
  rw [hrows]
  exact (List.map_insertionSort (fun a b => a.key ≤ b.key) (fun a b => a.key ≤ b.key)
    EnvironmentVariable.redacted _ fun _ _ _ _ => Iff.rfl).symm

theorem blind_getVariable (variableId : UUID) :
    Blind .redacted (EnvironmentVariableService.getVariable user variableId)
      (EnvironmentVariableService.getVariable user variableId) s :=
  (blind_getAuthorizedVariable variableId).bind fun p _ _ => blind_pure p.1

theorem blind_updateVariable (variableId : UUID) (fields : EnvironmentVariableUpdate)
    (hmember : s.db.AsMember user (.update variableId fields)) :
    Blind id (EnvironmentVariableService.updateVariable user variableId fields)
      (EnvironmentVariableService.updateVariable user variableId fields) s := by
  refine (blind_getAuthorizedVariable variableId).bind fun p s₁ h => ?_
  obtain ⟨v, role⟩ := p
  obtain ⟨rfl, hfound, hnot⟩ := getAuthorizedVariable_member rfl hmember h
  by_cases hsecret : v.isSecret = true ∨ fields.isSecret.getD v.isSecret = true
  · have : (v.isSecret = true ∨ fields.isSecret.getD v.isSecret = true) ∧ role ∉ adminRoles := ⟨hsecret, hnot⟩
    simp only [EnvironmentVariable.redacted, if_pos this]
    exact blind_throw _
  · have hplain : v.isSecret = false ∧ fields.isSecret.getD v.isSecret = false := by simpa using hsecret
    simp only [redacted_of_plain hplain.1]
    rw [if_neg fun h => hsecret h.1]
    have hupdate : Blind id (EnvironmentVariableRepository.update v (fields.applyTo v))
        (EnvironmentVariableRepository.update v (fields.applyTo v)) s₁ :=
      blind_update hfound rfl hplain.1 hplain.2
    exact hupdate.onIntegrityError _

theorem blind_deleteVariable (variableId : UUID) (hmember : s.db.AsMember user (.delete variableId)) :
    Blind id (EnvironmentVariableService.deleteVariable user variableId)
      (EnvironmentVariableService.deleteVariable user variableId) s := by
  refine (blind_getAuthorizedVariable variableId).bind fun p s₁ h => ?_
  obtain ⟨v, role⟩ := p
  obtain ⟨rfl, -, hnot⟩ := getAuthorizedVariable_member rfl hmember h
  simp only [if_pos hnot]
  exact blind_throw _

theorem blind_respond {request : VariableRequest} (hmember : s.db.AsMember user request) :
    Blind id (request.respond user) (request.respond user) s := by
  cases request with
  | create projectId key value isSecret =>
    exact (blind_createVariable projectId key value isSecret hmember).render _ fun _ => rfl
  | list projectId =>
    refine (blind_listVariables projectId).render _ fun vs => ?_
    rw [VariableResponse.ofRows, List.map_map, Function.comp_def, funext ofRow_redacted]
    rfl
  | get variableId =>
    exact (blind_getVariable variableId).render _ fun v => congrArg VariableResponse.read (ofRow_redacted v)
  | update variableId fields =>
    exact (blind_updateVariable variableId fields hmember).render _ fun _ => rfl
  | delete variableId =>
    exact (blind_deleteVariable variableId hmember).bind_same fun _ _ _ => blind_pure _

end

/-! One request, and then all of them. -/

theorem mirrors_commit (s : Session) : Mirrors Session.redacted id commit commit s := by
  unfold Mirrors commit
  cases hs : s.failed with
  | true => simp [Session.redacted, hs, Except.map]
  | false =>
    cases hc : s.commitCall with
    | ok => simp [Session.redacted, hs, hc, Except.map, Call.returned, Call.tookEffect]
    | raisedBefore => simp [Session.redacted, hs, hc, Except.map, Call.returned, Call.tookEffect]
    | raisedAfter => simp [Session.redacted, hs, hc, Except.map, Call.returned, Call.tookEffect]

section
variable {w : World} {r : Incoming VariableRequest}

theorem blind_answer (hmember : w.db.AsMember r.user r.request) :
    Blind id (r.request.respond r.user) (r.request.respond r.user) (w.session r.surroundings) :=
  blind_respond hmember

theorem answer_redacted (hmember : w.db.AsMember r.user r.request) :
    answer VariableRequest.respond w.redacted r =
      ((answer VariableRequest.respond w r).1, (answer VariableRequest.respond w r).2.redacted) := by
  have hmirrors : Mirrors Session.redacted id (getDb (r.request.respond r.user))
      (getDb (r.request.respond r.user)) (w.session r.surroundings) :=
    (blind_answer hmember).mirrors.bind fun a s _ => (mirrors_commit s).bind fun _ _ _ => mirrors_pure a
  have hsame : ∀ x : Except Exn VariableResponse, x.map id = x := by
    intro x
    cases x <;> rfl
  unfold Mirrors at hmirrors
  rw [hsame] at hmirrors
  unfold answer transact
  rw [show w.redacted.session r.surroundings = (w.session r.surroundings).redacted from rfl, hmirrors]
  rfl

theorem secretRows_answer (hmember : w.db.AsMember r.user r.request) :
    (answer VariableRequest.respond w r).2.db.secretRows = w.db.secretRows := by
  rcases committed_getDb (blind_answer hmember).committed with h | h
  · exact congrArg Database.secretRows h
  · exact (congrArg Database.secretRows h).trans (blind_answer hmember).secrets

end

/-- Two worlds that agree once redacted still do after a request, and it was answered alike. -/
theorem answerAll_redacted {w₁ w₂ : World} (requests : List (Incoming VariableRequest))
    (h : w₁.redacted = w₂.redacted) (hmember : IssuedByMembers w₁ requests) :
    (answerAll VariableRequest.respond w₁ requests).1 = (answerAll VariableRequest.respond w₂ requests).1 ∧
    (answerAll VariableRequest.respond w₁ requests).2.db.secretRows = w₁.db.secretRows ∧
    (answerAll VariableRequest.respond w₂ requests).2.db.secretRows = w₂.db.secretRows := by
  induction requests generalizing w₁ w₂ with
  | nil => exact ⟨rfl, rfl, rfl⟩
  | cons r requests ih =>
    obtain ⟨hfirst, hrest⟩ := hmember
    have hsecond : w₂.db.AsMember r.user r.request := by
      have : w₁.db.redacted = w₂.db.redacted := congrArg World.db h
      rwa [← asMember_redacted, ← this, asMember_redacted]
    have hanswer : ((answer VariableRequest.respond w₁ r).1, (answer VariableRequest.respond w₁ r).2.redacted) =
        ((answer VariableRequest.respond w₂ r).1, (answer VariableRequest.respond w₂ r).2.redacted) := by
      rw [← answer_redacted hfirst, ← answer_redacted hsecond, h]
    obtain ⟨hresponse, hafter⟩ := Prod.mk.inj hanswer
    obtain ⟨hresponses, hsecrets₁, hsecrets₂⟩ := ih hafter hrest
    exact ⟨congrArg₂ List.cons hresponse hresponses, hsecrets₁.trans (secretRows_answer hfirst),
      hsecrets₂.trans (secretRows_answer hsecond)⟩

/-- Whatever members send to the endpoints of variables, the responses and the errors do not
depend on the values of secrets, and the secrets are as they were. -/
theorem secrets_hidden_from_members (w : World) (db : Database) (requests : List (Incoming VariableRequest))
    (h : SecretsApart w.db db) (hmember : IssuedByMembers w requests) :
    (answerAll VariableRequest.respond w requests).1 =
      (answerAll VariableRequest.respond { w with db } requests).1 ∧
    (answerAll VariableRequest.respond w requests).2.db.secretRows = w.db.secretRows ∧
    (answerAll VariableRequest.respond { w with db } requests).2.db.secretRows = db.secretRows := by
  refine answerAll_redacted requests ?_ hmember
  unfold World.redacted
  rw [h.redacted]

instance (db : Database) (user : User) (request : VariableRequest) : Decidable (db.AsMember user request) :=
  inferInstanceAs (Decidable (∀ projectId ∈ request.projectId? db, ∀ p ∈ db.projects.get? projectId,
    ∀ m ∈ db.organizationMembers.get? (p.organizationId, user.id), m.role = .member))

instance decidableIssuedByMembers : ∀ (w : World) (requests : List (Incoming VariableRequest)),
    Decidable (IssuedByMembers w requests)
  | _, [] => .isTrue trivial
  | w, r :: requests =>
    have := decidableIssuedByMembers (answer VariableRequest.respond w r).2 requests
    inferInstanceAs (Decidable (w.db.AsMember r.user r.request ∧
      IssuedByMembers (answer VariableRequest.respond w r).2 requests))

/-- The organization with a member, and a project with a secret and a plain variable. -/
def memberTenant (secret : String) : Database :=
  { tenant with
    users := Table.empty.set ⟨7, "eve@example.com"⟩
    organizationMembers := tenant.organizationMembers.set ⟨1, 7, .member, 0⟩
    environmentVariables :=
      (Table.empty.set ⟨8, 3, "TOKEN", secret, true, 0, 0⟩).set ⟨9, 3, "HOST", "api.test", false, 0, 0⟩ }

/-- The member looks at everything, and tries to turn a plain variable into a secret and back. -/
def memberRequests : List (Incoming VariableRequest) :=
  [.list 3, .update 9 ⟨some "URL", some "api.test/v2", some true⟩, .update 9 ⟨some "URL", none, some false⟩,
    .update 8 ⟨none, none, some false⟩, .create 3 "TOKEN" "guess" false, .create 3 "USER" "eve" false,
    .update 10 ⟨some "TOKEN", none, none⟩, .get 8, .delete 9].map fun request =>
      ⟨⟨7, "eve@example.com"⟩, request, calm⟩

theorem secrets_hidden_from_members_memberTenant :
    (answerAll VariableRequest.respond ⟨memberTenant "s3cret", .empty, 10⟩ memberRequests).1 =
      (answerAll VariableRequest.respond ⟨memberTenant "pa55word", .empty, 10⟩ memberRequests).1 ∧
    (answerAll VariableRequest.respond ⟨memberTenant "s3cret", .empty, 10⟩ memberRequests).2.db.secretRows =
      (memberTenant "s3cret").secretRows ∧
    (answerAll VariableRequest.respond ⟨memberTenant "pa55word", .empty, 10⟩ memberRequests).2.db.secretRows =
      (memberTenant "pa55word").secretRows := by
  refine secrets_hidden_from_members ⟨memberTenant "s3cret", .empty, 10⟩ (memberTenant "pa55word")
    memberRequests ⟨rfl, ?_⟩ (by decide)
  exact .cons ⟨rfl, fun h => by cases h⟩ (.cons ⟨rfl, fun _ => rfl⟩ .nil)

end ApiTesting
