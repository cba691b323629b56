import ApiTesting.Lib.Paging
import ApiTesting.Proofs.Creation
import ApiTesting.Proofs.Subtrees
import ApiTesting.Spec.Endpoints

/-! Where a request comes that is created without a position. It is given the number of
requests its collection has, which is after all of them only where their own positions are
below that number; they need not be once one was given, moved or deleted. -/

namespace ApiTesting

open Keyed ServiceM Fallible Paging

def Database.collectionRequests (db : Database) (collectionId : UUID) : List ApiRequest :=
  db.apiRequests.rows.filter fun r => r.collectionId = collectionId

/-- `ORDER BY order_index, created_at` may put `a` before `b`. -/
def ApiRequest.mayPrecede (a b : ApiRequest) : Prop :=
  a.orderIndex < b.orderIndex ∨ a.orderIndex = b.orderIndex ∧ a.createdAt ≤ b.createdAt

instance : DecidableRel ApiRequest.mayPrecede := fun a b =>
  inferInstanceAs (Decidable (a.orderIndex < b.orderIndex ∨
    a.orderIndex = b.orderIndex ∧ a.createdAt ≤ b.createdAt))

instance : IsTrans ApiRequest ApiRequest.mayPrecede where
  trans a b c hab hbc := by
    unfold ApiRequest.mayPrecede at *
    grind

instance : Std.Total ApiRequest.mayPrecede where
  total a b := by
    unfold ApiRequest.mayPrecede
    grind

/-- What `list_by_collection` may return. -/
def Listing (db : Database) (collectionId : UUID) (requests : List ApiRequest) : Prop :=
  Orders ApiRequest.mayPrecede (db.collectionRequests collectionId) requests

/-- The sequence of tasks of a run created now. -/
def RunTasks (db : Database) (collectionId : UUID) (dataRows : Option (List (Dict String String)))
    (tasks : List TestTask) : Prop :=
  ∃ requests testRunId firstId, Listing db collectionId requests ∧
    tasks = TestTaskRepository.assignIds firstId (pendingTasks testRunId requests (rowsOf dataRows))

/-- The request whose task is the last one of a data row. -/
def lastOfRow (tasks : List TestTask) (dataRowIndex : Option ℕ) : Option UUID :=
  (tasks.filter fun t => t.dataRowIndex = dataRowIndex).getLast?.map TestTask.apiRequestId

/-- The request is the last one of its collection, however ties are broken, and in every run
created from it. -/
structure Appended (db : Database) (collectionId : UUID) (request : ApiRequest) : Prop where
  listed : ∀ requests, Listing db collectionId requests → requests.getLast? = some request
  run : ∀ dataRows tasks, RunTasks db collectionId dataRows tasks →
    ∀ row ∈ rowsOf dataRows, lastOfRow tasks row.1 = some request.id

/-- Every request of the collection has a position below their number, or is at that number
and older. -/
def PositionsBelow (db : Database) (collectionId : UUID) (now : Timestamp) : Prop :=
  ∀ r ∈ db.collectionRequests collectionId,
    r.orderIndex < (db.collectionRequests collectionId).length ∨
      r.orderIndex = (db.collectionRequests collectionId).length ∧ r.createdAt < now

instance (db : Database) (collectionId : UUID) (now : Timestamp) : Decidable (PositionsBelow db collectionId now) :=
  inferInstanceAs (Decidable (∀ r ∈ db.collectionRequests collectionId,
    r.orderIndex < (db.collectionRequests collectionId).length ∨
      r.orderIndex = (db.collectionRequests collectionId).length ∧ r.createdAt < now))

theorem listing_requestsOf (db : Database) (collectionId : UUID) :
    Listing db collectionId (db.requestsOf collectionId) := orders_insertionSort _ _

/-! The tasks of a run. -/

theorem nodup_rowsOf (dataRows : Option (List (Dict String String))) :
    ((rowsOf dataRows).map Prod.fst).Nodup := by
  rw [rowsOf_eq]
  split
  · exact List.nodup_singleton _
  · rw [List.map_map]
    exact List.nodup_range.map (Option.some_injective ℕ)

/-- The run has the requests in their order, row by row. -/
theorem lastOfRow_pendingTasks {testRunId : UUID} {requests : List ApiRequest} {request : ApiRequest}
    {dataRows : Option (List (Dict String String))} (hlast : requests.getLast? = some request)
    {row : Option ℕ × Option (Dict String String)} (hrow : row ∈ rowsOf dataRows) :
    lastOfRow (pendingTasks testRunId requests (rowsOf dataRows)) row.1 = some request.id := by
  have hnodup := nodup_rowsOf dataRows
  obtain ⟨pre, post, hrows⟩ := List.append_of_mem hrow
  rw [hrows, List.map_append, List.map_cons, List.nodup_append, List.nodup_cons] at hnodup
  have hlater : (pendingTasks testRunId requests post).filter (fun t => t.dataRowIndex = row.1) = [] := by
    rw [List.filter_eq_nil_iff]
    intro t ht
    obtain ⟨other, hother, ht⟩ := List.mem_flatMap.1 ht
    obtain ⟨r, hr, rfl⟩ := List.mem_map.1 ht
    simp only [decide_eq_true_eq]
    exact fun he => hnodup.2.1.1 (he ▸ List.mem_map_of_mem hother)
  have hsplit : pendingTasks testRunId requests (rowsOf dataRows) =
      pendingTasks testRunId requests pre ++ (pendingTasks testRunId requests [row] ++
        pendingTasks testRunId requests post) := by
    rw [hrows]
    simp [pendingTasks]
  obtain ⟨init, rfl⟩ := List.getLast?_eq_some_iff.1 hlast
  unfold lastOfRow
  rw [hsplit, List.filter_append, List.filter_append, hlater]
  simp [pendingTasks, List.filter_append]

theorem lastOfRow_assignIds (firstId : UUID) (tasks : List TestTask) (dataRowIndex : Option ℕ) :
    lastOfRow (TestTaskRepository.assignIds firstId tasks) dataRowIndex = lastOfRow tasks dataRowIndex := by
  have hmap : ∀ l : List TestTask, lastOfRow l dataRowIndex =
      (((l.map TestTask.origin).filter fun o => o.2.1 = dataRowIndex).getLast?).map Prod.fst := by
    intro l
    rw [lastOfRow, List.filter_map, List.getLast?_map, Option.map_map]
    rfl
  rw [hmap, hmap, map_assignIds fun _ _ => rfl]

/-- What `_create_run` plans is the sequence of tasks of such a listing. -/
theorem runTasks_of_planRun {collectionId initiatedBy : UUID} {runType : TestRunType}
    {dataRows : Option (List (Dict String String))} {s s' : Session} {planned : TestRun × List TestTask}
    (hs : s.failed = false)
    (h : TestRunService.planRun collectionId initiatedBy runType dataRows s = (.ok planned, s')) :
    RunTasks s.db collectionId dataRows planned.2 := by
  obtain ⟨hreq, ⟨c, hc⟩, -⟩ := planRun_ok hs h
  obtain ⟨config, hplan⟩ := planRun_eq initiatedBy runType dataRows hs hreq hc
  rw [hplan] at h
  obtain ⟨u, s₁, -, hbulk⟩ := ok_of_bind h
  obtain ⟨tasks, s₂, hcreate, hreturn⟩ := ok_of_bind hbulk
  cases hreturn
  obtain ⟨firstId, s₃, -, hflush⟩ := ok_of_bind hcreate
  obtain ⟨u, s₄, -, hreturn⟩ := ok_of_bind hflush
  cases hreturn
  exact ⟨_, s.nextId, firstId, listing_requestsOf s.db collectionId, rfl⟩

theorem appended_of_listed {db : Database} {collectionId : UUID} {request : ApiRequest}
    (h : ∀ requests, Listing db collectionId requests → requests.getLast? = some request) :
    Appended db collectionId request where
  listed := h
  run := by
    rintro dataRows tasks ⟨requests, testRunId, firstId, hlisting, rfl⟩ row hrow
    rw [lastOfRow_assignIds]
    exact lastOfRow_pendingTasks (h requests hlisting) hrow

/-! The creation. -/

/-- The request a creation adds. -/
structure Creates (db : Database) (now : Timestamp) (collectionId : UUID) (fields : ApiRequestCreate)
    (request : ApiRequest) (db' : Database) : Prop where
  inserted : ∃ apiRequests, db.apiRequests.insert? request = some apiRequests ∧ db' = { db with apiRequests }
  collection : request.collectionId = collectionId
  position : request.orderIndex = fields.orderIndex.getD (db.collectionRequests collectionId).length
  time : request.createdAt = now

section
variable {user : User} {collectionId : UUID} {fields : ApiRequestCreate} {s : Session}

theorem createRow_cases (request : ApiRequest) (s : Session) :
    (ApiRequestRepository.create request s).2.db = s.db ∨
      ∃ apiRequests, s.db.apiRequests.insert? { request with id := s.nextId, createdAt := s.now } = some apiRequests ∧
        (ApiRequestRepository.create request s).2.db = { s.db with apiRequests } := by
  let s₁ : Session := { s with nextId := s.nextId + 1 }
  let row : ApiRequest := { request with id := s.nextId, createdAt := s.now }
  let insert : Database → Except Exn Database := fun db => do
    require (db.collections.get? row.collectionId).isSome
    let apiRequests ← insertRow db.apiRequests row
    return { db with apiRequests }
  have hrun : (ApiRequestRepository.create request s).2 = (flush insert s₁).2 := by
    change ((do flush insert; return row : ServiceM ApiRequest) s₁).2 = _
    rcases hf : flush insert s₁ with ⟨r, s₂⟩
    rw [bind_return hf]
  rw [hrun]
  rcases db_flush_cases insert s₁ with hsame | hwritten
  · exact .inl hsame
  · obtain ⟨apiRequests, hinsert, hdb⟩ := ok_of_checked hwritten
    exact .inr ⟨apiRequests, insertRow_ok hinsert, hdb⟩

/-- A creation adds its request, or nothing. -/
theorem createRequest_cases (user : User) (collectionId : UUID) (fields : ApiRequestCreate) (s : Session) :
    (ApiRequestService.createRequest user collectionId fields s).2.db = s.db ∨
      ∃ request, Creates s.db s.now collectionId fields request
        (ApiRequestService.createRequest user collectionId fields s).2.db := by
  let P : Session → Prop := fun s' =>
    s'.db = s.db ∨ ∃ request, Creates s.db s.now collectionId fields request s'.db
  have hstart : P s := .inl rfl
  have hcreate : ∀ request : ApiRequest, request.collectionId = collectionId →
      request.orderIndex = fields.orderIndex.getD (s.db.collectionRequests collectionId).length →
      P (ApiRequestRepository.create request s).2 := by
    intro request hcollection hposition
    rcases createRow_cases request s with hsame | ⟨apiRequests, hinserted, hdb⟩
    · exact .inl hsame
    · exact .inr ⟨_, ⟨apiRequests, hinserted, hdb⟩, hcollection, hposition, rfl⟩
  change P _
  refine bind_of_readOnly (readOnly_organizationIdForCollection _ _) hstart fun organizationId _ => ?_
  refine bind_of_readOnly (readOnly_requireMembership _ _ _ _) hstart fun membership _ => ?_
  cases hopen : fields.orderIndex with
  | some orderIndex => exact hcreate _ rfl (by rw [hopen]; rfl)
  | none =>
    have hread : ReadOnly (List.length <$> ApiRequestRepository.listByCollection collectionId) := by
      rw [map_eq_pure_bind]
      exact (readOnly_query _).bind fun _ => keeps_pure _
    refine bind_of_readOnly hread hstart fun count hcount => hcreate _ rfl ?_
    rw [map_eq_pure_bind] at hcount
    obtain ⟨requests, s₁, hquery, hreturn⟩ := ok_of_bind hcount
    cases hreturn
    rw [hopen, query_ok hquery]
    exact List.length_insertionSort _ _

end

theorem uncommitted_createRequest (user : User) (collectionId : UUID) (fields : ApiRequestCreate) :
    Uncommitted (ApiRequestService.createRequest user collectionId fields) := by
  have hcreate : ∀ request, Uncommitted (ApiRequestRepository.create request) := fun request =>
    (uncommitted_generateIds 1).bind fun _ => readOnly_now.uncommitted.bind fun _ =>
      (uncommitted_flush _).bind fun _ => keeps_pure _
  unfold ApiRequestService.createRequest
  refine (readOnly_organizationIdForCollection _ _).uncommitted.bind fun _ => ?_
  refine (readOnly_requireMembership _ _ _ _).uncommitted.bind fun _ => ?_
  cases fields.orderIndex with
  | some orderIndex => exact hcreate _
  | none =>
    refine Keeps.bind ?_ fun count => hcreate _
    rw [map_eq_pure_bind]
    exact (readOnly_query _).uncommitted.bind fun _ => keeps_pure _

/-- What a creation leaves behind. -/
theorem answer_create_cases (w : World) (user : User) (collectionId : UUID) (fields : ApiRequestCreate)
    (x : Surroundings) :
    (answer RequestEdit.respond w ⟨user, .create collectionId fields, x⟩).2.db = w.db ∨
      ∃ request, Creates w.db x.now collectionId fields request
        (answer RequestEdit.respond w ⟨user, .create collectionId fields, x⟩).2.db := by
  have hkeep : KeepsFrom Session.committed ((RequestEdit.create collectionId fields).respond user)
      (w.session x) := by
    rw [RequestEdit.respond, map_eq_pure_bind]
    exact ((uncommitted_createRequest _ _ _).bind fun _ => keeps_pure _) _
  rcases committed_getDb hkeep with hsame | hcommitted
  · exact .inl hsame
  · rw [RequestEdit.respond, snd_map] at hcommitted
    rw [show (answer RequestEdit.respond w ⟨user, .create collectionId fields, x⟩).2.db = _ from hcommitted]
    exact createRequest_cases user collectionId fields (w.session x)

section
variable {db db' : Database} {now : Timestamp} {collectionId : UUID} {fields : ApiRequestCreate}
  {request : ApiRequest}

theorem Creates.rows (h : Creates db now collectionId fields request db') :
    db'.apiRequests.rows = db.apiRequests.rows ++ [request] := by
  obtain ⟨apiRequests, hinsert, rfl⟩ := h.inserted
  exact (Table.rows_insert? hinsert).1

theorem Creates.collectionRequests (h : Creates db now collectionId fields request db') (id : UUID) :
    db'.collectionRequests id =
      db.collectionRequests id ++ if collectionId = id then [request] else [] := by
  rw [Database.collectionRequests, h.rows, List.filter_append]
  congr 1
  by_cases hid : collectionId = id
  · simp [hid, h.collection]
  · simp [hid, h.collection]

theorem nodup_collectionRequests (db : Database) (collectionId : UUID) :
    (db.collectionRequests collectionId).Nodup := (List.Nodup.of_map _ db.apiRequests.nodup).filter _

/-- A new request without a position of its own is last just where the others are below it. -/
theorem Creates.last_iff_below (h : Creates db now collectionId fields request db')
    (hopen : fields.orderIndex = none) :
    Appended db' collectionId request ↔ PositionsBelow db collectionId now := by
  have hrows : db'.collectionRequests collectionId = db.collectionRequests collectionId ++ [request] := by
    rw [h.collectionRequests, if_pos rfl]
  have hnodup := nodup_collectionRequests db' collectionId
  have hmem : request ∈ db'.collectionRequests collectionId := by
    rw [hrows]
    exact List.mem_append_right _ List.mem_cons_self
  have hlast := last_iff ApiRequest.mayPrecede hnodup hmem
  have hbelow : (∀ q ∈ db'.collectionRequests collectionId, q ≠ request → ¬ request.mayPrecede q) ↔
      PositionsBelow db collectionId now := by
    have hposition : request.orderIndex = (db.collectionRequests collectionId).length := by
      rw [h.position, hopen]
      rfl
    have hbefore : ∀ q : ApiRequest, ¬ request.mayPrecede q ↔
        q.orderIndex < (db.collectionRequests collectionId).length ∨
          q.orderIndex = (db.collectionRequests collectionId).length ∧ q.createdAt < now := by
      intro q
      rw [ApiRequest.mayPrecede, hposition, h.time]
      grind
    simp only [hbefore, hrows, List.mem_append, List.mem_singleton]
    rw [hrows, List.nodup_append] at hnodup
    constructor
    · intro hall q hq
      exact hall q (.inl hq) (hnodup.2.2 q hq request List.mem_cons_self)
    · intro hbelow q hq hne
      exact hbelow q (hq.resolve_right hne)
  rw [← hbelow, ← hlast]
  exact ⟨Appended.listed, appended_of_listed⟩

end

/-! Where no creation gives a position, and nothing is edited or deleted. -/

/-- The requests of the collection have positions below their number. -/
def Packed (db : Database) (collectionId : UUID) : Prop :=
  ∀ r ∈ db.collectionRequests collectionId, r.orderIndex < (db.collectionRequests collectionId).length

def RequestEdit.isOpenCreation : RequestEdit → Bool
  | .create _ fields => fields.orderIndex.isNone
  | _ => false

theorem Packed.answer {w : World} {r : Incoming RequestEdit} {collectionId : UUID}
    (h : Packed w.db collectionId) (hr : r.request.isOpenCreation = true) :
    Packed (ApiTesting.answer RequestEdit.respond w r).2.db collectionId := by
  obtain ⟨user, request, x⟩ := r
  cases request with
  | create id fields =>
    rcases answer_create_cases w user id fields x with hsame | ⟨created, hcreates⟩
    · rwa [hsame]
    · have hposition : created.orderIndex = (w.db.collectionRequests id).length := by
        rw [hcreates.position, Option.isNone_iff_eq_none.1 hr]
        rfl
      unfold Packed
      rw [hcreates.collectionRequests]
      by_cases hid : id = collectionId
      · subst hid
        simp only [if_pos, List.length_append, List.length_singleton, List.mem_append, List.mem_singleton]
        rintro q (hq | rfl)
        · exact (h q hq).trans (Nat.lt_succ_self _)
        · exact hposition ▸ Nat.lt_succ_self _
      · rw [if_neg hid, List.append_nil]
        exact h
  | update id fields => cases hr
  | delete id => cases hr

theorem packed_answerAll {w : World} (history : List (Incoming RequestEdit)) {collectionId : UUID}
    (h : Packed w.db collectionId) (hall : ∀ r ∈ history, r.request.isOpenCreation = true) :
    Packed (answerAll RequestEdit.respond w history).2.db collectionId := by
  induction history generalizing w with
  | nil => exact h
  | cons r history ih =>
    rw [List.forall_mem_cons] at hall
    exact ih (h.answer hall.1) hall.2

/-- Creations without a position go one after the other. -/
theorem positionsBelow_of_creations {w : World} (history : List (Incoming RequestEdit)) {collectionId : UUID}
    (hempty : w.db.collectionRequests collectionId = [])
    (hall : ∀ r ∈ history, r.request.isOpenCreation = true) (now : Timestamp) :
    PositionsBelow (answerAll RequestEdit.respond w history).2.db collectionId now := by
  have hpacked : Packed w.db collectionId := by
    intro r hr
    rw [hempty] at hr
    cases hr
  exact fun r hr => .inl (packed_answerAll history hpacked hall r hr)

/-- In whatever way the requests were created, edited and deleted before: a request that is
then created without a position comes last just when the positions of the others are below
their number, or at it and given to older ones. -/
theorem appended_iff (w : World) (history : List (Incoming RequestEdit)) (user : User) (collectionId : UUID)
    (fields : ApiRequestCreate) (x : Surroundings) (request : ApiRequest) (hopen : fields.orderIndex = none)
    (hold : request ∉ (answerAll RequestEdit.respond w history).2.db.apiRequests.rows)
    (hnew : request ∈ (answer RequestEdit.respond (answerAll RequestEdit.respond w history).2
      ⟨user, .create collectionId fields, x⟩).2.db.apiRequests.rows) :
    Appended (answer RequestEdit.respond (answerAll RequestEdit.respond w history).2
        ⟨user, .create collectionId fields, x⟩).2.db collectionId request ↔
      PositionsBelow (answerAll RequestEdit.respond w history).2.db collectionId x.now := by
  generalize (answerAll RequestEdit.respond w history).2 = w at hold hnew ⊢
  rcases answer_create_cases w user collectionId fields x with hsame | ⟨created, hcreates⟩
  · rw [hsame] at hnew
    exact absurd hnew hold
  · rw [hcreates.rows, List.mem_append, List.mem_singleton] at hnew
    obtain rfl := hnew.resolve_left hold
    exact hcreates.last_iff_below hopen

def openRequest (name : String) : ApiRequestCreate :=
  ⟨name, .get, "http://ping", .empty, .empty, none, none, 1000, []⟩

/-- The requests a history leaves in the tenant's collection, next to one at the position 0. -/
def tenantAfter (edits : List RequestEdit) : World :=
  (answerAll RequestEdit.respond tenantWorld (edits.map fun edit => ⟨acmeOwner, edit, calm⟩)).2

/-- What is there after one more request without a position. -/
def tenantThen (edits : List RequestEdit) : World :=
  (answer RequestEdit.respond (tenantAfter edits) ⟨acmeOwner, .create 4 (openRequest "New"), calm⟩).2

def twoCreations : List RequestEdit := [.create 4 (openRequest "A"), .create 4 (openRequest "B")]

/-- Two requests without a position, and a third after them. -/
theorem appended_twoCreations : ∃ request ∈ (tenantThen twoCreations).db.apiRequests.rows,
    request.id = 12 ∧ Appended (tenantThen twoCreations).db 4 request := by
  let request := (tenantThen twoCreations).db.apiRequests.rows.get ⟨3, by decide⟩
  have hnew : request ∈ (tenantThen twoCreations).db.apiRequests.rows := List.get_mem _ _
  have hold : request ∉ (tenantAfter twoCreations).db.apiRequests.rows := fun h =>
    absurd (List.mem_map_of_mem (f := ApiRequest.id) h) (by decide)
  refine ⟨request, hnew, by decide, ?_⟩
  refine (appended_iff tenantWorld (twoCreations.map fun edit => ⟨acmeOwner, edit, calm⟩) acmeOwner 4
    (openRequest "New") calm request rfl hold hnew).2 ?_
  have hbelow : PositionsBelow (tenantAfter twoCreations).db 4 0 := by decide
  exact hbelow

/-- The same with the first two requests deleted in between: the new one comes before the last. -/
theorem not_appended_deletions : ∃ request ∈ (tenantThen (twoCreations ++ [.delete 5, .delete 10])).db.apiRequests.rows,
    request ∉ (tenantAfter (twoCreations ++ [.delete 5, .delete 10])).db.apiRequests.rows ∧
      ¬ Appended (tenantThen (twoCreations ++ [.delete 5, .delete 10])).db 4 request := by
  let request := (tenantThen (twoCreations ++ [.delete 5, .delete 10])).db.apiRequests.rows.get ⟨1, by decide⟩
  refine ⟨request, List.get_mem _ _, fun h => ?_, fun h => ?_⟩
  · exact absurd (List.mem_map_of_mem (f := ApiRequest.id) h) (by decide)
  · have hlast := congrArg (Option.map ApiRequest.id) (h.listed _ (listing_requestsOf _ 4))
    exact absurd hlast (by decide)

end ApiTesting
