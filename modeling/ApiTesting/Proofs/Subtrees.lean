import ApiTesting.Proofs.Isolation

/-! What deleting a parent takes along. The ORM walks from the row to its children
and deletes one row after the other, so a deletion is put together from those of its
children; each takes the subtree of its row out of a database, and refuses where a
run or a task hangs off it. -/

namespace ApiTesting

open Keyed ServiceM Fallible

/-- The tables whose rows have children; the members of an organization go before its projects. -/
inductive Tier
  | organization
  | members
  | project
  | collection
  | request

/-- The ids of the rows a deletion reaches; their other children are reached through them. -/
def Subtree := Tier → UUID → Bool

namespace Subtree

def empty : Subtree := fun _ _ => false

def union (T U : Subtree) : Subtree := fun k i => T k i || U k i

/-- The subtrees of several rows. -/
def unions {ρ : Type} (l : List ρ) (tree : ρ → Subtree) : Subtree := fun k i => l.any fun r => tree r k i

def Disjoint (T U : Subtree) : Prop := ∀ k i, U k i = true → T k i = false

end Subtree

/-- The database without the rows the ORM deletes for a subtree. -/
def Database.prune (db : Database) (T : Subtree) : Database :=
  { db with
    organizations := db.organizations.filter fun o => !T .organization o.id
    organizationMembers := db.organizationMembers.filter fun m => !T .members m.organizationId
    projects := db.projects.filter fun p => !T .project p.id
    environmentVariables := db.environmentVariables.filter fun v => !T .project v.projectId
    collections := db.collections.filter fun c => !T .collection c.id
    schedules := db.schedules.filter fun s => !T .collection s.collectionId
    apiRequests := db.apiRequests.filter fun r => !T .request r.id
    assertions := db.assertions.filter fun a => !T .request a.apiRequestId }

/-! The subtree of a row: its id, and the ids of the rows whose parent is in it. -/

section
variable (db : Database)

def requestTree (r : ApiRequest) : Subtree
  | .request, i => i = r.id
  | _, _ => false

def Database.collectionTree (c : Collection) : Subtree
  | .collection, i => i = c.id
  | .request, i => (db.apiRequests.get? i).any fun r => r.collectionId = c.id
  | _, _ => false

def Database.projectTree (p : Project) : Subtree
  | .project, i => i = p.id
  | .collection, i => (db.collections.get? i).any fun c => c.projectId = p.id
  | .request, i => (db.apiRequests.get? i).any fun r =>
    (db.collections.get? r.collectionId).any fun c => c.projectId = p.id
  | _, _ => false

def Database.organizationTree (o : Organization) : Subtree
  | .organization, i => i = o.id
  | .members, i => i = o.id
  | .project, i => (db.projects.get? i).any fun p => p.organizationId = o.id
  | .collection, i => (db.collections.get? i).any fun c =>
    (db.projects.get? c.projectId).any fun p => p.organizationId = o.id
  | .request, i => (db.apiRequests.get? i).any fun r =>
    (db.collections.get? r.collectionId).any fun c =>
      (db.projects.get? c.projectId).any fun p => p.organizationId = o.id

end

/-- From the database without some other subtree, `f` takes out `U`, or raises. -/
def Removes (db : Database) (f : Database → Except Exn Database) (ok : Prop) (U : Subtree) : Prop :=
  ∀ T : Subtree, T.Disjoint U → (ok → f (db.prune T) = .ok (db.prune (T.union U))) ∧
    (¬ ok → ∃ e, f (db.prune T) = .error e)

section
variable {db : Database} {T U V : Subtree}

theorem filter_filter_not {ρ κ : Type} {key : ρ → κ} (t : Table key) (p q : ρ → Bool) :
    (t.filter fun r => !p r).filter (fun r => !q r) = t.filter fun r => !(p r || q r) := by
  apply Table.ext
  simp only [Table.filter, List.filter_filter]
  congr 1
  funext r
  cases p r <;> cases q r <;> rfl

theorem prune_empty : db.prune .empty = db := by
  have hall : ∀ {ρ κ : Type} {key : ρ → κ} (t : Table key), (t.filter fun _ => true) = t := by
    intro ρ κ key t
    exact Table.ext (List.filter_eq_self.2 fun _ _ => rfl)
  simp only [Database.prune, Subtree.empty, Bool.not_false, hall]

/-- Children of one parent, deleted by their keys. -/
theorem foldlM_deleteRow {σ ρ κ : Type} [DecidableEq κ] {key : ρ → κ} (get : σ → Table key)
    (put : σ → Table key → σ) {f : σ → ρ → Except Exn σ} (hget : ∀ s t, get (put s t) = t)
    (hput : ∀ s t u, put (put s t) u = put s u) (hself : ∀ s, put s (get s) = s)
    (hf : ∀ s r, f s r = (deleteRow (get s) (key r)).map (put s)) (s : σ) (p : ρ → Bool) :
    ((get s).rows.filter p).foldlM f s = .ok (put s ((get s).filter fun r => !p r)) := by
  have hall : ∀ (l : List ρ) (s : σ), (l.map key).Nodup → (∀ r ∈ l, r ∈ (get s).rows) →
      l.foldlM f s = .ok (put s ((get s).filter fun r => key r ∉ l.map key)) := by
    intro l
    induction l with
    | nil =>
      intro s _ _
      have : ((get s).filter fun r => key r ∉ ([] : List ρ).map key) = get s :=
        Table.ext (List.filter_eq_self.2 fun _ _ => by simp)
      rw [this, hself]
      rfl
    | cons r l ih =>
      intro s hnd hmem
      rw [List.map_cons, List.nodup_cons] at hnd
      have hr : ((get s).get? (key r)).isSome := by
        rw [Table.get?_eq_some_iff.2 ⟨hmem r List.mem_cons_self, rfl⟩]
        rfl
      have hstep : f s r = .ok (put s ((get s).erase (key r))) := by
        rw [hf, deleteRow, if_pos hr]
        rfl
      rw [List.foldlM_cons, hstep]
      refine (ih _ hnd.2 fun q hq => ?_).trans ?_
      · rw [hget, Table.erase, Table.mem_filter]
        refine ⟨hmem q (List.mem_cons_of_mem r hq), ?_⟩
        simp only [ne_eq, decide_eq_true_eq]
        exact fun he => hnd.1 (he ▸ List.mem_map_of_mem hq)
      · rw [hget, hput]
        congr 2
        apply Table.ext
        simp only [Table.erase, Table.filter, List.filter_filter]
        congr 1
        funext q
        by_cases hq : key q = key r <;> simp [hq]
  have hsub : ((get s).rows.filter p).Sublist (get s).rows := List.filter_sublist
  rw [hall _ s ((get s).nodup.sublist (hsub.map key)) fun r hr => hsub.subset hr]
  congr 2
  apply Table.ext
  refine List.filter_congr fun r hr => ?_
  cases hp : p r with
  | true =>
    have : key r ∈ ((get s).rows.filter p).map key := List.mem_map_of_mem (List.mem_filter.2 ⟨hr, hp⟩)
    simpa [and_assoc] using this
  | false =>
    simp only [Bool.not_false, decide_eq_true_eq, List.mem_map, List.mem_filter, not_exists, not_and]
    rintro q ⟨hq, hpq⟩ hk
    rw [List.inj_on_of_nodup_map (get s).nodup hq hr hk, hp] at hpq
    cases hpq

/-! How deletions compose. -/

theorem disjoint_empty (U : Subtree) : Subtree.empty.Disjoint U := fun _ _ _ => rfl

theorem Subtree.Disjoint.union_left (h : T.Disjoint V) (h' : U.Disjoint V) :
    (T.union U).Disjoint V := by
  intro k i hi
  simp [Subtree.union, h k i hi, h' k i hi]

theorem removes_congr {f : Database → Except Exn Database} {ok ok' : Prop} (h : Removes db f ok U)
    (hok : ok ↔ ok') : Removes db f ok' U := by
  rwa [← hok]

/-- On the whole database. -/
theorem removes_run {f : Database → Except Exn Database} {ok : Prop} (h : Removes db f ok U) :
    (ok → f db = .ok (db.prune U)) ∧ (¬ ok → ∃ e, f db = .error e) := by
  have hall := h .empty (disjoint_empty U)
  rwa [prune_empty] at hall

/-- Rows of disjoint subtrees, deleted one after the other. -/
theorem removes_foldlM {ρ : Type} {f : Database → ρ → Except Exn Database} {ok : ρ → Prop}
    {tree : ρ → Subtree} {l : List ρ} (hf : ∀ r ∈ l, Removes db (fun d => f d r) (ok r) (tree r))
    (hl : l.Pairwise fun r q => (tree r).Disjoint (tree q)) :
    Removes db (fun d => l.foldlM f d) (∀ r ∈ l, ok r) (.unions l tree) := by
  induction l with
  | nil =>
    intro T _
    have hnone : T.union (.unions [] tree) = T := by
      funext k i
      simp [Subtree.union, Subtree.unions]
    rw [hnone]
    exact ⟨fun _ => rfl, fun h => absurd (by simp) h⟩
  | cons r l ih =>
    rw [List.pairwise_cons] at hl
    have ih := ih (fun q hq => hf q (List.mem_cons_of_mem r hq)) hl.2
    intro T hT
    have hTr : T.Disjoint (tree r) := fun k i hi => hT k i (by simp [Subtree.unions, hi])
    have hTl : T.Disjoint (.unions l tree) := by
      intro k i hi
      refine hT k i ?_
      rw [Subtree.unions] at hi
      rw [Subtree.unions, List.any_cons, hi, Bool.or_true]
    have hrl : (tree r).Disjoint (.unions l tree) := by
      intro k i hi
      obtain ⟨q, hq, hi⟩ := List.any_eq_true.1 hi
      exact hl.1 q hq k i hi
    have hunion : (T.union (tree r)).union (.unions l tree) = T.union (.unions (r :: l) tree) := by
      funext k i
      simp [Subtree.union, Subtree.unions, Bool.or_assoc]
    have hhead := hf r List.mem_cons_self T hTr
    have htail := ih (T.union (tree r)) (hTl.union_left hrl)
    by_cases hr : ok r
    · simp only [List.foldlM_cons, hhead.1 hr]
      change (_ → l.foldlM f _ = _) ∧ (_ → ∃ e, l.foldlM f _ = _)
      rw [← hunion]
      refine ⟨fun h => htail.1 fun q hq => h q (List.mem_cons_of_mem r hq), fun h => htail.2 fun hq => h ?_⟩
      exact List.forall_mem_cons.2 ⟨hr, hq⟩
    · obtain ⟨e, he⟩ := hhead.2 hr
      simp only [List.foldlM_cons, he]
      exact ⟨fun h => absurd (h r List.mem_cons_self) hr, fun _ => ⟨e, rfl⟩⟩

/-! One row of each kind. -/

theorem deleteAssertions_run (db : Database) (p : Assertion → Bool) :
    (db.assertions.rows.filter p).foldlM deleteAssertionRow db =
      .ok { db with assertions := db.assertions.filter fun a => !p a } := by
  refine foldlM_deleteRow Database.assertions (fun d t => { d with assertions := t })
    (fun _ _ => rfl) (fun _ _ _ => rfl) (fun _ => rfl) (fun d a => ?_) db p
  unfold deleteAssertionRow
  cases deleteRow d.assertions a.id <;> rfl

theorem deleteSchedules_run (db : Database) (p : Schedule → Bool) :
    (db.schedules.rows.filter p).foldlM deleteScheduleRow db =
      .ok { db with schedules := db.schedules.filter fun s => !p s } := by
  refine foldlM_deleteRow Database.schedules (fun d t => { d with schedules := t })
    (fun _ _ => rfl) (fun _ _ _ => rfl) (fun _ => rfl) (fun d s => ?_) db p
  unfold deleteScheduleRow
  cases deleteRow d.schedules s.id <;> rfl

theorem deleteVariables_run (db : Database) (p : EnvironmentVariable → Bool) :
    (db.environmentVariables.rows.filter p).foldlM deleteVariableRow db =
      .ok { db with environmentVariables := db.environmentVariables.filter fun v => !p v } := by
  refine foldlM_deleteRow Database.environmentVariables
    (fun d t => { d with environmentVariables := t })
    (fun _ _ => rfl) (fun _ _ _ => rfl) (fun _ => rfl) (fun d v => ?_) db p
  unfold deleteVariableRow
  cases deleteRow d.environmentVariables v.id <;> rfl

theorem deleteMembers_run (db : Database) (p : OrganizationMember → Bool) :
    (db.organizationMembers.rows.filter p).foldlM deleteMemberRow db =
      .ok { db with organizationMembers := db.organizationMembers.filter fun m => !p m } := by
  refine foldlM_deleteRow Database.organizationMembers
    (fun d t => { d with organizationMembers := t })
    (fun _ _ => rfl) (fun _ _ _ => rfl) (fun _ => rfl) (fun d m => ?_) db p
  unfold deleteMemberRow
  cases deleteRow d.organizationMembers m.key <;> rfl

/-- A row outside the pruned subtree is there to be deleted. -/
theorem deleteRow_filter {ρ κ : Type} [DecidableEq κ] {key : ρ → κ} {t : Table key} {r : ρ}
    (hr : r ∈ t.rows) {p : ρ → Bool} (hp : p r = false) :
    deleteRow (t.filter fun q => !p q) (key r) = .ok (t.filter fun q => !(p q || decide (key q = key r))) := by
  have hget : ((t.filter fun q => !p q).get? (key r)).isSome := by
    rw [Table.get?_eq_some_iff.2 ⟨Table.mem_filter.2 ⟨hr, by simp [hp]⟩, rfl⟩]
    rfl
  rw [deleteRow, if_pos hget, ← filter_filter_not]
  congr 2
  apply Table.ext
  simp [Table.erase, Table.filter]

/-- No task is of the request. -/
def Database.unusedRequest (db : Database) (r : ApiRequest) : Bool :=
  db.testTasks.rows.all fun t => t.apiRequestId ≠ r.id

theorem removes_apiRequest {r : ApiRequest} (hr : r ∈ db.apiRequests.rows) :
    Removes db (fun d => deleteApiRequestRow d r) (db.unusedRequest r) (requestTree r) := by
  intro T hT
  have hout : T .request r.id = false := hT .request r.id (by simp [requestTree])
  have hdel := deleteRow_filter hr (p := fun q => T .request q.id) hout
  have hrun : deleteApiRequestRow (db.prune T) r =
      (require (db.unusedRequest r)).bind fun _ => .ok (db.prune (T.union (requestTree r))) := by
    unfold deleteApiRequestRow
    change (require (db.unusedRequest r)).bind _ = _
    congr 1
    funext _
    rw [deleteAssertions_run]
    change (deleteRow (db.apiRequests.filter fun q => !T .request q.id) r.id).bind _ = _
    rw [hdel]
    simp only [Database.prune, filter_filter_not, Subtree.union, requestTree, Bool.or_false]
    rfl
  change (_ → deleteApiRequestRow (db.prune T) r = _) ∧ (_ → ∃ e, deleteApiRequestRow (db.prune T) r = _)
  rw [hrun]
  cases db.unusedRequest r
  · exact ⟨fun h => (Bool.false_ne_true h).elim, fun _ => ⟨integrityError, rfl⟩⟩
  · exact ⟨fun _ => rfl, fun h => absurd rfl h⟩

/-- Rows outside the pruned subtree are all still there. -/
theorem filter_outside {ρ : Type} {l : List ρ} {p q : ρ → Bool} (h : ∀ r ∈ l, q r = true → p r = false) :
    (l.filter fun r => !p r).filter q = l.filter q := by
  rw [List.filter_filter]
  refine List.filter_congr fun r hr => ?_
  cases hq : q r with
  | true => simp [h r hr hq]
  | false => simp

theorem any_filter {ρ κ : Type} [DecidableEq κ] {key : ρ → κ} (t : Table key) (q : ρ → Bool) (k : κ) :
    ((t.rows.filter q).any fun r => k = key r) = (t.get? k).any q := by
  rw [Bool.eq_iff_iff, List.any_eq_true, Option.any_eq_true]
  constructor
  · rintro ⟨r, hr, hk⟩
    obtain ⟨hr, hq⟩ := List.mem_filter.1 hr
    exact ⟨r, Table.get?_eq_some_iff.2 ⟨hr, (of_decide_eq_true hk).symm⟩, hq⟩
  · rintro ⟨r, hr, hq⟩
    obtain ⟨hr, hk⟩ := Table.get?_eq_some_iff.1 hr
    exact ⟨r, List.mem_filter.2 ⟨hr, hq⟩, decide_eq_true hk.symm⟩

/-- No run is of the collection, and no task of its requests. -/
def Database.unusedCollection (db : Database) (c : Collection) : Bool :=
  (db.testRuns.rows.all fun r => r.collectionId ≠ c.id) &&
    (db.apiRequests.rows.filter fun r => r.collectionId = c.id).all db.unusedRequest

theorem requestTrees_disjoint {l : List ApiRequest} (h : (l.map ApiRequest.id).Nodup) :
    l.Pairwise fun r q => (requestTree r).Disjoint (requestTree q) := by
  refine (List.pairwise_map.1 h).imp fun hne k i hi => ?_
  cases k with
  | request =>
    obtain rfl : i = _ := of_decide_eq_true hi
    simpa [requestTree] using fun he => hne he.symm
  | _ => cases hi

theorem nodup_filter {ρ κ : Type} {key : ρ → κ} (t : Table key) (q : ρ → Bool) :
    ((t.rows.filter q).map key).Nodup := (t.filter q).nodup

theorem Subtree.Disjoint.mono (h : T.Disjoint V) (hsub : ∀ k i, U k i = true → V k i = true) :
    T.Disjoint U := fun k i hi => h k i (hsub k i hi)

/-- A parent row: the check on it, the rows `M` that go first, its children in `l`, and
what `h` deletes after them. -/
theorem removes_parent {ρ : Type} {f h : Database → Except Exn Database}
    {g : Database → ρ → Except Exn Database} {b : Bool} {l : List ρ} {ok : ρ → Bool}
    (tree : ρ → Subtree) {M : Subtree}
    (hchildren : Removes db (fun d => l.foldlM g d) (∀ r ∈ l, ok r) (.unions l tree))
    (hM : M.Disjoint (.unions l tree)) (hsub : ∀ k i, Subtree.unions l tree k i = true → U k i = true)
    (hf : ∀ T : Subtree, T.Disjoint U →
      f (db.prune T) = (require b).bind fun _ => (l.foldlM g (db.prune (T.union M))).bind h)
    (hh : ∀ T : Subtree, T.Disjoint U →
      h (db.prune ((T.union M).union (.unions l tree))) = .ok (db.prune (T.union U))) :
    Removes db f (b && l.all ok) U := by
  intro T hT
  have hchild := hchildren (T.union M) ((hT.mono hsub).union_left hM)
  dsimp only at hchild
  rw [hf T hT]
  simp only [Bool.and_eq_true, List.all_eq_true]
  constructor
  · rintro ⟨hb, hok⟩
    rw [require, if_pos hb, Except.bind, hchild.1 hok]
    exact hh T hT
  · intro hno
    cases b with
    | false => exact ⟨integrityError, rfl⟩
    | true =>
      obtain ⟨e, he⟩ := hchild.2 fun hok => hno ⟨rfl, hok⟩
      exact ⟨e, by rw [he]; rfl⟩

theorem union_empty (T : Subtree) : T.union .empty = T := by
  funext k i
  exact Bool.or_false _

theorem unions_requests (q : ApiRequest → Bool) :
    Subtree.unions (db.apiRequests.rows.filter q) requestTree = fun k i =>
      match k with
      | .request => (db.apiRequests.get? i).any q
      | _ => false := by
  funext k i
  cases k with
  | request => exact any_filter db.apiRequests q i
  | _ => simp [Subtree.unions, requestTree]

theorem removes_collection {c : Collection} (hc : c ∈ db.collections.rows) :
    Removes db (fun d => deleteCollectionRow d c) (db.unusedCollection c) (db.collectionTree c) := by
  refine removes_parent requestTree (g := deleteApiRequestRow) (M := .empty)
    (l := db.apiRequests.rows.filter fun r => r.collectionId = c.id) (h := fun d => do
      let d ← (d.schedules.rows.filter fun s => s.collectionId = c.id).foldlM deleteScheduleRow d
      let collections ← deleteRow d.collections c.id
      return { d with collections }) ?_ (disjoint_empty _) ?_ ?_ ?_
  · exact removes_foldlM (fun r hr => removes_apiRequest (List.mem_filter.1 hr).1)
      (requestTrees_disjoint (nodup_filter _ _))
  · rw [unions_requests]
    intro k i hi
    cases k with
    | request => exact hi
    | _ => cases hi
  · intro T hT
    have hrows : (db.prune T).apiRequests.rows.filter (fun r => r.collectionId = c.id) =
        db.apiRequests.rows.filter fun r => r.collectionId = c.id := by
      refine filter_outside fun r hr hrc => hT .request r.id ?_
      have hrc : r.collectionId = c.id := of_decide_eq_true hrc
      simp [Database.collectionTree, Table.get?_eq_some_iff.2 ⟨hr, rfl⟩, hrc]
    rw [union_empty, ← hrows]
    rfl
  · intro T hT
    have hout : T .collection c.id = false := hT .collection c.id (by simp [Database.collectionTree])
    have hdel := deleteRow_filter hc (p := fun q => T .collection q.id) hout
    rw [union_empty, unions_requests]
    simp only [bind, deleteSchedules_run, Except.bind]
    simp only [Database.prune, Subtree.union, Bool.or_false, hdel, filter_filter_not,
      Database.collectionTree]
    rfl

theorem collectionTrees_disjoint {l : List Collection} (h : (l.map Collection.id).Nodup) :
    l.Pairwise fun c d => (db.collectionTree c).Disjoint (db.collectionTree d) := by
  refine (List.pairwise_map.1 h).imp fun {c d} hne k i hi => ?_
  cases k with
  | collection =>
    obtain rfl : i = d.id := of_decide_eq_true hi
    simpa [Database.collectionTree] using fun he => hne he.symm
  | request =>
    simp only [Database.collectionTree] at hi ⊢
    obtain ⟨r, hr, hrd⟩ := (Option.any_eq_true _ _).1 hi
    rw [hr]
    simpa [of_decide_eq_true hrd] using fun he => hne he.symm
  | _ => cases hi

theorem any_any_comm {α β : Type} (o : Option α) (l : List β) (p : β → α → Bool) :
    (l.any fun b => o.any (p b)) = o.any fun a => l.any fun b => p b a := by
  cases o with
  | none => simp
  | some a => rfl

theorem unions_collections (q : Collection → Bool) :
    Subtree.unions (db.collections.rows.filter q) db.collectionTree = fun k i =>
      match k with
      | .collection => (db.collections.get? i).any q
      | .request => (db.apiRequests.get? i).any fun r => (db.collections.get? r.collectionId).any q
      | _ => false := by
  funext k i
  cases k with
  | collection => exact any_filter db.collections q i
  | request =>
    simp only [Subtree.unions, Database.collectionTree, any_any_comm]
    congr 1
    funext r
    exact any_filter db.collections q r.collectionId
  | _ => simp [Subtree.unions, Database.collectionTree]

def Database.unusedProject (db : Database) (p : Project) : Bool :=
  (db.collections.rows.filter fun c => c.projectId = p.id).all db.unusedCollection

theorem removes_project {p : Project} (hp : p ∈ db.projects.rows) :
    Removes db (fun d => deleteProjectRow d p) (db.unusedProject p) (db.projectTree p) := by
  refine removes_parent db.collectionTree (b := true) (g := deleteCollectionRow) (M := .empty)
    (l := db.collections.rows.filter fun c => c.projectId = p.id) (h := fun d => do
      let d ← (d.environmentVariables.rows.filter fun v => v.projectId = p.id).foldlM deleteVariableRow d
      let projects ← deleteRow d.projects p.id
      return { d with projects }) ?_ (disjoint_empty _) ?_ ?_ ?_
  · exact removes_foldlM (fun c hc => removes_collection (List.mem_filter.1 hc).1)
      (collectionTrees_disjoint (nodup_filter _ _))
  · rw [unions_collections]
    intro k i hi
    cases k with
    | collection => exact hi
    | request => exact hi
    | _ => cases hi
  · intro T hT
    have hrows : (db.prune T).collections.rows.filter (fun c => c.projectId = p.id) =
        db.collections.rows.filter fun c => c.projectId = p.id := by
      refine filter_outside fun c hc hcp => hT .collection c.id ?_
      have hcp : c.projectId = p.id := of_decide_eq_true hcp
      simp [Database.projectTree, Table.get?_eq_some_iff.2 ⟨hc, rfl⟩, hcp]
    rw [union_empty, ← hrows]
    rfl
  · intro T hT
    have hout : T .project p.id = false := hT .project p.id (by simp [Database.projectTree])
    have hdel := deleteRow_filter hp (p := fun q => T .project q.id) hout
    rw [union_empty, unions_collections]
    simp only [bind, deleteVariables_run, Except.bind]
    simp only [Database.prune, Subtree.union, Bool.or_false, hdel, filter_filter_not,
      Database.projectTree]
    rfl

theorem projectTrees_disjoint {l : List Project} (h : (l.map Project.id).Nodup) :
    l.Pairwise fun p q => (db.projectTree p).Disjoint (db.projectTree q) := by
  refine (List.pairwise_map.1 h).imp fun {p q} hne k i hi => ?_
  cases k with
  | project =>
    obtain rfl : i = q.id := of_decide_eq_true hi
    simpa [Database.projectTree] using fun he => hne he.symm
  | collection =>
    simp only [Database.projectTree] at hi ⊢
    obtain ⟨c, hc, hcq⟩ := (Option.any_eq_true _ _).1 hi
    rw [hc]
    simpa [of_decide_eq_true hcq] using fun he => hne he.symm
  | request =>
    simp only [Database.projectTree] at hi ⊢
    obtain ⟨r, hr, hrq⟩ := (Option.any_eq_true _ _).1 hi
    obtain ⟨c, hc, hcq⟩ := (Option.any_eq_true _ _).1 hrq
    rw [hr, Option.any_some, hc]
    simpa [of_decide_eq_true hcq] using fun he => hne he.symm
  | _ => cases hi

theorem unions_projects (q : Project → Bool) :
    Subtree.unions (db.projects.rows.filter q) db.projectTree = fun k i =>
      match k with
      | .project => (db.projects.get? i).any q
      | .collection => (db.collections.get? i).any fun c => (db.projects.get? c.projectId).any q
      | .request => (db.apiRequests.get? i).any fun r => (db.collections.get? r.collectionId).any fun c =>
        (db.projects.get? c.projectId).any q
      | _ => false := by
  have hcollection : ∀ i, (db.projects.rows.filter q).any (fun p =>
      (db.collections.get? i).any fun c => c.projectId = p.id) =
        (db.collections.get? i).any fun c => (db.projects.get? c.projectId).any q := by
    intro i
    rw [any_any_comm]
    congr 1
    funext c
    exact any_filter db.projects q c.projectId
  funext k i
  cases k with
  | project => exact any_filter db.projects q i
  | collection => exact hcollection i
  | request =>
    simp only [Subtree.unions, Database.projectTree, any_any_comm, ← hcollection]
  | _ => simp [Subtree.unions, Database.projectTree]

def Database.unusedOrganization (db : Database) (o : Organization) : Bool :=
  (db.projects.rows.filter fun p => p.organizationId = o.id).all db.unusedProject

/-- The memberships of an organization. -/
def memberTree (o : Organization) : Subtree
  | .members, i => i = o.id
  | _, _ => false

theorem removes_organization {o : Organization} (ho : o ∈ db.organizations.rows) :
    Removes db (fun d => deleteOrganizationRow d o) (db.unusedOrganization o) (db.organizationTree o) := by
  refine removes_parent db.projectTree (b := true) (g := deleteProjectRow) (M := memberTree o)
    (l := db.projects.rows.filter fun p => p.organizationId = o.id) (h := fun d => do
      let organizations ← deleteRow d.organizations o.id
      return { d with organizations }) ?_ ?_ ?_ ?_ ?_
  · exact removes_foldlM (fun p hp => removes_project (List.mem_filter.1 hp).1)
      (projectTrees_disjoint (nodup_filter _ _))
  · rw [unions_projects]
    intro k i hi
    cases k with
    | members => cases hi
    | _ => rfl
  · rw [unions_projects]
    intro k i hi
    cases k with
    | organization => cases hi
    | members => cases hi
    | _ => exact hi
  · intro T hT
    have hrows : (db.prune T).projects.rows.filter (fun p => p.organizationId = o.id) =
        db.projects.rows.filter fun p => p.organizationId = o.id := by
      refine filter_outside fun p hp hpo => hT .project p.id ?_
      have hpo : p.organizationId = o.id := of_decide_eq_true hpo
      simp [Database.organizationTree, Table.get?_eq_some_iff.2 ⟨hp, rfl⟩, hpo]
    have hmembers : db.prune (T.union (memberTree o)) =
        { db.prune T with
          organizationMembers :=
            (db.prune T).organizationMembers.filter fun m => !decide (m.organizationId = o.id) } := by
      simp only [Database.prune, Subtree.union, memberTree, Bool.or_false, filter_filter_not]
    unfold deleteOrganizationRow
    simp only [bind, deleteMembers_run]
    rw [hmembers, ← hrows]
    rfl
  · intro T hT
    have hout : T .organization o.id = false := hT .organization o.id (by simp [Database.organizationTree])
    have hdel := deleteRow_filter ho (p := fun q => T .organization q.id) hout
    rw [unions_projects]
    simp only [bind, Database.prune, Subtree.union, memberTree, Bool.or_false, hdel,
      Database.organizationTree]
    rfl

/-! Run history. -/

/-- No collection of the subtree has a run, and no request of it a task. -/
def Database.Unused (db : Database) (T : Subtree) : Prop :=
  (∀ r ∈ db.testRuns.rows, T .collection r.collectionId = false) ∧
    ∀ t ∈ db.testTasks.rows, T .request t.apiRequestId = false

theorem unused_unions {ρ : Type} {l : List ρ} {tree : ρ → Subtree} :
    db.Unused (.unions l tree) ↔ ∀ r ∈ l, db.Unused (tree r) := by
  simp only [Database.Unused, Subtree.unions, List.any_eq_false, Bool.not_eq_true]
  constructor
  · rintro ⟨hruns, htasks⟩ r hr
    exact ⟨fun q hq => hruns q hq r hr, fun t ht => htasks t ht r hr⟩
  · intro h
    exact ⟨fun q hq r hr => (h r hr).1 q hq, fun t ht r hr => (h r hr).2 t ht⟩

theorem unusedRequest_iff {r : ApiRequest} : db.unusedRequest r = true ↔ db.Unused (requestTree r) := by
  simp [Database.unusedRequest, Database.Unused, requestTree]

theorem unusedCollection_iff {c : Collection} :
    db.unusedCollection c = true ↔ db.Unused (db.collectionTree c) := by
  have hreqs : ((db.apiRequests.rows.filter fun r => r.collectionId = c.id).all db.unusedRequest) = true ↔
      ∀ t ∈ db.testTasks.rows, db.collectionTree c .request t.apiRequestId = false := by
    rw [List.all_eq_true]
    simp only [unusedRequest_iff]
    rw [← unused_unions, unions_requests]
    simp [Database.Unused, Database.collectionTree]
  rw [Database.unusedCollection, Bool.and_eq_true, hreqs, Database.Unused]
  simp [Database.collectionTree]

theorem unusedProject_iff {p : Project} : db.unusedProject p = true ↔ db.Unused (db.projectTree p) := by
  rw [Database.unusedProject, List.all_eq_true]
  simp only [unusedCollection_iff]
  rw [← unused_unions, unions_collections]
  rfl

theorem unusedOrganization_iff {o : Organization} :
    db.unusedOrganization o = true ↔ db.Unused (db.organizationTree o) := by
  rw [Database.unusedOrganization, List.all_eq_true]
  simp only [unusedProject_iff]
  rw [← unused_unions, unions_projects]
  rfl

end

section
variable (db : Database) (T : Subtree)

def Database.runIn (r : TestRun) : Bool := T .collection r.collectionId

def Database.taskIn (t : TestTask) : Bool :=
  (db.testRuns.get? t.testRunId).any (Database.runIn T) || T .request t.apiRequestId

def Database.logIn (l : ExecutionLog) : Bool :=
  l.testRunId.any (fun i => (db.testRuns.get? i).any (Database.runIn T)) ||
    l.testTaskId.any fun i => (db.testTasks.get? i).any (db.taskIn T)

/-- The database without the rows of a subtree, runs and what they left included. -/
def Database.without : Database :=
  { db.prune T with
    testRuns := db.testRuns.filter fun r => !Database.runIn T r
    testTasks := db.testTasks.filter fun t => !db.taskIn T t
    requestResults := db.requestResults.filter fun r =>
      !(db.testTasks.get? r.testTaskId).any (db.taskIn T)
    executionLogs := db.executionLogs.filter fun l => !db.logIn T l }

end

/-- Without run history there is nothing else to delete. -/
theorem prune_eq_without {db : Database} {T : Subtree} (h : db.Unused T) : db.prune T = db.without T := by
  have hrun : ∀ i, (db.testRuns.get? i).any (Database.runIn T) = false := by
    intro i
    rw [Option.any_eq_false]
    intro r hr
    simpa [Database.runIn] using h.1 r (Table.get?_eq_some_iff.1 hr).1
  have htask : ∀ t ∈ db.testTasks.rows, db.taskIn T t = false := by
    intro t ht
    rw [Database.taskIn, hrun, h.2 t ht]
    rfl
  have htasks : ∀ i, (db.testTasks.get? i).any (db.taskIn T) = false := by
    intro i
    rw [Option.any_eq_false]
    intro t ht
    simpa using htask t (Table.get?_eq_some_iff.1 ht).1
  have hruns : (db.testRuns.filter fun r => !Database.runIn T r) = db.testRuns :=
    Table.ext (List.filter_eq_self.2 fun r hr => by simpa [Database.runIn] using h.1 r hr)
  have htaskRows : (db.testTasks.filter fun t => !db.taskIn T t) = db.testTasks :=
    Table.ext (List.filter_eq_self.2 fun t ht => by simpa using htask t ht)
  have hlog : ∀ l, db.logIn T l = false := by
    intro l
    rw [Database.logIn]
    simp [hrun, htasks]
  have hresults : (db.requestResults.filter fun r =>
      !(db.testTasks.get? r.testTaskId).any (db.taskIn T)) = db.requestResults :=
    List.filter_eq_self.2 fun r _ => by rw [htasks]; rfl
  have hlogs : (db.executionLogs.filter fun l => !db.logIn T l) = db.executionLogs :=
    List.filter_eq_self.2 fun l _ => by rw [hlog]; rfl
  rw [Database.without, hruns, htaskRows, hresults, hlogs]
  rfl

/-! The three deletions a user can ask for. -/

inductive Parent
  | organization
  | project
  | collection

namespace Parent

def kind : Parent → Kind
  | organization => .organization
  | project => .project
  | collection => .collection

def requiredRoles : Parent → List OrganizationRole
  | organization => [.owner]
  | project => adminRoles
  | collection => adminRoles

def delete : Parent → User → UUID → ServiceM Unit
  | organization => OrganizationService.deleteOrganization
  | project => ProjectService.deleteProject
  | collection => CollectionService.deleteCollection

end Parent

def Database.subtree (db : Database) : Parent → UUID → Subtree
  | .organization, id => (db.organizations.get? id).elim .empty db.organizationTree
  | .project, id => (db.projects.get? id).elim .empty db.projectTree
  | .collection, id => (db.collections.get? id).elim .empty db.collectionTree

/-- The user has a role in the organization of the row that lets them delete it. -/
def Database.mayDelete (db : Database) (p : Parent) (user : User) (id : UUID) : Prop :=
  ∃ o m, db.owner p.kind id = some o ∧ db.organizationMembers.get? (o, user.id) = some m ∧
    m.role ∈ p.requiredRoles

section
variable {s : Session} {user : User} {id o : UUID} {m : OrganizationMember} {e : AppError}

theorem requireMembership_run (hs : s.failed = false)
    (hm : s.db.organizationMembers.get? (o, user.id) = some m) {roles : List OrganizationRole}
    (hrole : m.role ∈ roles) : requireMembership o user.id (some roles) e s = (.ok m, s) := by
  unfold requireMembership OrganizationMemberRepository.getMembership
  rw [bind_found hs hm]
  simp only [Option.all_some, hrole, decide_true, if_true]
  rfl

/-- An authorized deletion is one flush, which takes out the subtree or raises. -/
theorem delete_run (hs : s.failed = false) {p : Parent} (h : s.db.mayDelete p user id) :
    ∃ f, p.delete user id s = flush f s ∧
      Removes s.db f (s.db.Unused (s.db.subtree p id)) (s.db.subtree p id) := by
  obtain ⟨o, m, ho, hm, hrole⟩ := h
  cases p with
  | organization =>
    obtain ⟨org, horg, rfl⟩ := Option.map_eq_some_iff.1 ho
    obtain ⟨hrow, hid⟩ := Table.get?_eq_some_iff.1 horg
    rw [hid] at hm
    refine ⟨fun d => deleteOrganizationRow d org, ?_, ?_⟩
    · have hreq : requireMembership id user.id (some [.owner]) .organizationNotFound s = (.ok m, s) :=
        requireMembership_run hs hm hrole
      simp only [Parent.delete, OrganizationService.deleteOrganization, OrganizationRepository.getById]
      rw [bind_of_ok _ hreq, bind_found hs horg]
      rfl
    · rw [Database.subtree, horg]
      exact removes_congr (removes_organization hrow) unusedOrganization_iff
  | project =>
    obtain ⟨pr, hpr, rfl⟩ := Option.map_eq_some_iff.1 ho
    have hrow := (Table.get?_eq_some_iff.1 hpr).1
    refine ⟨fun d => deleteProjectRow d pr, ?_, ?_⟩
    · have hreq : requireMembership pr.organizationId user.id (some adminRoles) .projectNotFound s =
          (.ok m, s) := requireMembership_run hs hm hrole
      have hauth : ProjectService.getAuthorizedProject user id (some adminRoles) s = (.ok pr, s) := by
        unfold ProjectService.getAuthorizedProject ProjectRepository.getById
        rw [bind_found hs hpr, bind_of_ok _ hreq]
        rfl
      exact bind_of_ok _ hauth
    · rw [Database.subtree, hpr]
      exact removes_congr (removes_project hrow) unusedProject_iff
  | collection =>
    obtain ⟨c, hc, ho⟩ := Option.bind_eq_some_iff.1 ho
    obtain ⟨pr, hpr, rfl⟩ := Option.map_eq_some_iff.1 ho
    have hrow := (Table.get?_eq_some_iff.1 hc).1
    refine ⟨fun d => deleteCollectionRow d c, ?_, ?_⟩
    · have hreq : requireMembership pr.organizationId user.id (some adminRoles) .collectionNotFound s =
          (.ok m, s) := requireMembership_run hs hm hrole
      have hauth : CollectionService.getAuthorizedCollection user id (some adminRoles) s = (.ok c, s) := by
        unfold CollectionService.getAuthorizedCollection CollectionRepository.getById ProjectRepository.getById
        rw [bind_found hs hc, bind_found hs hpr, bind_of_ok _ hreq]
        rfl
      exact bind_of_ok _ hauth
    · rw [Database.subtree, hc]
      exact removes_congr (removes_collection hrow) unusedCollection_iff

end

/-- A user who may delete an organization, project or collection takes its whole
subtree along and nothing else, just when nothing in it has been run. -/
theorem delete_subtree_iff (w : World) (x : Surroundings) (p : Parent) (user : User) (id : UUID)
    (hx : x.commit = .ok) (h : w.db.mayDelete p user id) :
    (getDb (p.delete user id)).transact x w =
        (.ok (), { w with db := w.db.without (w.db.subtree p id) }) ↔
      w.db.Unused (w.db.subtree p id) := by
  obtain ⟨f, hf, hremoves⟩ := delete_run (s := w.session x) rfl h
  obtain ⟨hgood, hbad⟩ := removes_run hremoves
  constructor
  · intro hrun
    by_contra hused
    obtain ⟨e, he⟩ := hbad hused
    have hraise : getDb (p.delete user id) (w.session x) = (.error e, { w.session x with failed := true }) :=
      bind_of_error _ (hf.trans (flush_raise rfl he))
    rw [transact, hraise] at hrun
    cases hrun
  · intro hunused
    have hflush := hf.trans (flush_run rfl (hgood hunused))
    have hrun : getDb (p.delete user id) (w.session x) =
        (.ok (), { w.session x with
          db := w.db.prune (w.db.subtree p id)
          committed := w.db.prune (w.db.subtree p id) }) := by
      refine (bind_of_ok _ hflush).trans ?_
      simp only [World.session, hx]
      rfl
    rw [transact, hrun, prune_eq_without hunused]
    rfl

def acmeOwner : User := ⟨2, "owner@acme.test"⟩

def calm : Surroundings := ⟨0, fun _ => .ok, .ok, .table⟩

def tenantWorld : World := ⟨tenant, .empty, 10⟩

theorem mayDelete_tenant : tenant.mayDelete .collection acmeOwner 4 :=
  ⟨1, ⟨1, 2, .owner, 0⟩, rfl, rfl, List.mem_cons_self⟩

theorem delete_subtree_tenant :
    (getDb (Parent.collection.delete acmeOwner 4)).transact calm tenantWorld =
      (.ok (), { tenantWorld with db := tenant.without (tenant.subtree .collection 4) }) := by
  refine (delete_subtree_iff tenantWorld calm .collection acmeOwner 4 rfl mayDelete_tenant).2 ⟨?_, ?_⟩
  · intro r hr
    cases hr
  · intro t ht
    cases ht

/-- The same organization once its collection has been run. -/
def tenantWithRun : Database :=
  { tenant with
    testRuns := Table.empty.set { startedRun 7 1 with
      collectionId := 4, status := .completed, completedAt := some 5, completedTasks := 1 }
    testTasks := Table.empty.set { pendingTask 8 7 5 0 3 with status := .completed } }

/-- The run's foreign key is set to NULL, which the column refuses. -/
theorem not_delete_tenantWithRun :
    tenantWithRun.mayDelete .collection acmeOwner 4 ∧
      (getDb (Parent.collection.delete acmeOwner 4)).transact calm ⟨tenantWithRun, .empty, 10⟩ =
        (.error integrityError, ⟨tenantWithRun, .empty, 10⟩) :=
  ⟨⟨1, ⟨1, 2, .owner, 0⟩, rfl, rfl, List.mem_cons_self⟩, rfl⟩

end ApiTesting
