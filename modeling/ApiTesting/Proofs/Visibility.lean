import ApiTesting.Proofs.Creation
import ApiTesting.Proofs.Custody
import ApiTesting.Proofs.Launch
import ApiTesting.Spec.Platform

/-! A task is on the stream before the transaction that creates it is committed, and a
worker that looks it up in between finds nothing and lets the entry go. So a task is
lost exactly where a transaction commits a task that has been looked up already. -/

namespace ApiTesting

open Keyed Machine Fallible

namespace Platform

abbrev db (p : Platform) : Database := p.system.stores.db

/-- No task that a worker has given up as missing is there. -/
def NoneLost (p : Platform) : Prop := ∀ id ∈ p.dropped, id ∉ p.db.testTasks.keys

/-- A transaction commits its tasks before any worker has looked one of them up. -/
def CommitsFirst (p : Platform) (a : PlatformAction) : Prop :=
  ∀ t call tx, a = .commit t call → call.tookEffect = true → p.transactions[t]? = some tx →
    ∀ task ∈ tx.tasks, task.id ∉ p.lookups

/-! What a step does. -/

inductive Move (lib : Libraries) (rateLimiter : Bool) (p : Platform) : PlatformAction → Platform → Prop
  | work {a : Action} {s : System} : ApiTesting.Move lib rateLimiter p.system a s →
      Move lib rateLimiter p (.work a)
        { p with
          system := s
          lookups := p.lookups ++ p.system.lookedUp a
          dropped := p.dropped ++ (p.system.lookedUp a).filter fun id =>
            (loadTask p.system.stores.db id).toOption.isNone }
  | begin {kind : CallerKind} :
      Move lib rateLimiter p (.begin kind) { p with transactions := p.transactions ++ [⟨kind, .ready, [], []⟩] }
  | planned {t : ℕ} {collectionId initiatedBy : UUID} {dataRows : Option (List (Dict String String))}
      {now : Timestamp} {tx : Transaction} {run : TestRun} {tasks : List TestTask} {s : Session} :
      p.transactions[t]? = some tx → p.plan tx collectionId initiatedBy dataRows now = (.ok (run, tasks), s) →
      Move lib rateLimiter p (.create t collectionId initiatedBy dataRows now)
        ({ p with nextId := s.nextId }.put t
          { tx with
            stage := .grouping (tasks.map TestTask.id)
            runs := tx.runs ++ [run]
            tasks := tx.tasks ++ tasks })
  | unplanned {t : ℕ} {collectionId initiatedBy : UUID} {dataRows : Option (List (Dict String String))}
      {now : Timestamp} {tx : Transaction} {exc : Exn} {s : Session} {stage : Stage} :
      p.transactions[t]? = some tx → p.plan tx collectionId initiatedBy dataRows now = (.error exc, s) →
      Move lib rateLimiter p (.create t collectionId initiatedBy dataRows now)
        ({ p with nextId := s.nextId }.put t { tx with stage })
  | ensureGroup {t : ℕ} {call : Call} {tx : Transaction} {stage : Stage} : p.transactions[t]? = some tx →
      Move lib rateLimiter p (.ensureGroup t call) (p.put t { tx with stage })
  | enqueue {t : ℕ} {call : Call} {tx : Transaction} {stage : Stage} {stream : Stream} :
      p.transactions[t]? = some tx →
      Move lib rateLimiter p (.enqueue t call)
        ({ p with system := { p.system with stream } }.put t { tx with stage })
  | commit {t : ℕ} {call : Call} {tx : Transaction} : p.transactions[t]? = some tx →
      Move lib rateLimiter p (.commit t call)
        ({ p with
          system :=
            { p.system with
              stores :=
                { p.system.stores with db := if call.tookEffect then tx.view p.db else p.db } } }.put t tx.close)
  | rollback {t : ℕ} {tx : Transaction} : p.transactions[t]? = some tx →
      Move lib rateLimiter p (.rollback t) (p.put t tx.close)

section
variable {lib : Libraries} {rateLimiter : Bool} {p p' : Platform} {a : PlatformAction}

theorem move_of_step (h : step lib rateLimiter p a = some p') : Move lib rateLimiter p a p' := by
  cases a with
  | work a =>
    obtain ⟨s, hs, rfl⟩ := Option.map_eq_some_iff.1 h
    exact .work (ApiTesting.move_of_step hs)
  | begin kind =>
    cases h
    exact .begin
  | create t collectionId initiatedBy dataRows now =>
    simp only [step] at h
    split at h
    · rename_i tx htx
      split at h
      · split at h
        · split at h
          · rename_i hplan
            cases h
            exact .planned htx hplan
          · rename_i hplan
            cases h
            exact .unplanned htx hplan
        · cases h
      · cases h
    · cases h
  | ensureGroup t call =>
    simp only [step] at h
    split at h
    · rename_i tx htx
      split at h
      · cases h
        exact .ensureGroup htx
      · cases h
    · cases h
  | enqueue t call =>
    simp only [step] at h
    split at h
    · rename_i tx htx
      split at h
      · cases h
        exact .enqueue htx
      · cases h
    · cases h
  | commit t call =>
    simp only [step] at h
    split at h
    · rename_i tx htx
      split at h
      · cases h
        exact .commit htx
      · cases h
    · cases h
  | rollback t =>
    simp only [step] at h
    split at h
    · rename_i tx htx
      cases h
      exact .rollback htx
    · cases h

end

/-! The rows of an open transaction, and those of different ones. -/

structure Open (p : Platform) (tx : Transaction) : Prop where
  runs : ∀ r ∈ tx.runs, r.id < p.nextId
  tasks : ∀ t ∈ tx.tasks, t.id < p.nextId ∧ t.id ∉ p.db.testTasks.keys
  parents : ∀ t ∈ tx.tasks, (p.db.apiRequests.get? t.apiRequestId).isSome = true ∧
    t.testRunId ∈ tx.runs.map TestRun.id

structure Inv (p : Platform) : Prop where
  rooted : Rooted p.db
  runs : ∀ k ∈ p.db.testRuns.keys, k < p.nextId
  tasks : ∀ k ∈ p.db.testTasks.keys, k < p.nextId
  open_ : ∀ (t : ℕ) (tx : Transaction), p.transactions[t]? = some tx → Open p tx
  apart : ∀ (i j : ℕ) (tx ux : Transaction), i ≠ j → p.transactions[i]? = some tx →
    p.transactions[j]? = some ux → ∀ a ∈ tx.tasks, ∀ b ∈ ux.tasks, a.id ≠ b.id
  looked : ∀ id ∈ p.lookups, id ∈ p.dropped ∨ id ∈ p.db.testTasks.keys
  dropped : ∀ id ∈ p.dropped, id ∈ p.lookups

section
variable {lib : Libraries} {rateLimiter : Bool} {p p' : Platform} {a : PlatformAction}

theorem Start.inv (h : p.Start) : Inv p where
  rooted := by
    intro t row hrow
    exact h.parents row (Table.get?_eq_some_iff.1 hrow).1
  runs := by
    intro k hk
    obtain ⟨r, hr, rfl⟩ := List.mem_map.1 hk
    exact h.runs r hr
  tasks := by
    intro k hk
    obtain ⟨t, ht, rfl⟩ := List.mem_map.1 hk
    exact h.tasks t ht
  open_ := by simp [h.transactions]
  apart := by simp [h.transactions]
  looked := by simp [h.lookups]
  dropped := by simp [h.dropped]

theorem open_close (tx : Transaction) : Open p tx.close where
  runs := fun _ hr => absurd hr List.not_mem_nil
  tasks := fun _ ht => absurd ht List.not_mem_nil
  parents := fun _ ht => absurd ht List.not_mem_nil

theorem Open.transfer {tx : Transaction} (h : Open p tx) (hid : p.nextId ≤ p'.nextId)
    (htasks : ∀ t ∈ tx.tasks, t.id ∉ p'.db.testTasks.keys) (hreq : p'.db.apiRequests = p.db.apiRequests) :
    Open p' tx where
  runs := fun r hr => Nat.lt_of_lt_of_le (h.runs r hr) hid
  tasks := fun t ht => ⟨Nat.lt_of_lt_of_le (h.tasks t ht).1 hid, htasks t ht⟩
  parents := by
    rw [hreq]
    exact h.parents

/-- The stage of a transaction is nothing to its rows. -/
theorem Open.stage {tx : Transaction} (h : Open p tx) (stage : Stage) : Open p { tx with stage } :=
  ⟨h.runs, h.tasks, h.parents⟩

/-! What the workers do to the rows. -/

theorem rows_of_work {s s' : System} {a : Action} (h : ApiTesting.Move lib rateLimiter s a s') :
    s'.stores.db.testTasks.keys = s.stores.db.testTasks.keys ∧
      s'.stores.db.testRuns.keys = s.stores.db.testRuns.keys ∧
      s'.stores.db.apiRequests = s.stores.db.apiRequests ∧ (Rooted s.stores.db → Rooted s'.stores.db) := by
  rcases db_of_move h with ⟨w, now, call, b, -, -, hdb⟩ | ⟨-, hdb⟩
  · rw [hdb]
    rcases runWrite_cases b.outcomes now call s.stores.db with hsame | ⟨-, hok⟩
    · rw [hsame]
      exact ⟨rfl, rfl, rfl, id⟩
    · have hwritten := written_of_writeBatch hok
      refine ⟨?_, hwritten.runKeys, hwritten.apiRequests, hwritten.rooted⟩
      rw [hwritten.testTasks, keys_foldl_applyOutcome]
  · rw [hdb]
    exact ⟨rfl, rfl, rfl, id⟩

theorem mem_keys_of_loadTask {db : Database} {id : UUID} {v : TaskView} (h : loadTask db id = .ok v) :
    id ∈ db.testTasks.keys := by
  rw [← Table.get?_isSome_iff]
  unfold loadTask at h
  split at h
  · cases h
  · rename_i row hrow
    rw [hrow]
    rfl

/-- Where the foreign keys hold, a task that is given up has no row. -/
theorem not_mem_keys_of_loadTask {db : Database} (hr : Rooted db) {id : UUID}
    (h : (loadTask db id).toOption.isNone = true) : id ∉ db.testTasks.keys := by
  rw [← Table.get?_eq_none_iff]
  rcases hrow : db.testTasks.get? id with _ | row
  · rfl
  · obtain ⟨hq, hrun⟩ := hr id row hrow
    obtain ⟨q, hq⟩ := Option.isSome_iff_exists.1 hq
    obtain ⟨r, hrun⟩ := Option.isSome_iff_exists.1 hrun
    simp [loadTask, hrow, hq, hrun, Except.toOption] at h

theorem Inv.work (h : Inv p) {a : Action} {s : System} (hm : ApiTesting.Move lib rateLimiter p.system a s)
    {lookups dropped : List UUID} (hlooked : ∀ id ∈ lookups, id ∈ dropped ∨ id ∈ p.db.testTasks.keys)
    (hdropped : ∀ id ∈ dropped, id ∈ lookups) :
    Inv { p with system := s, lookups, dropped } := by
  obtain ⟨htasks, hruns, hreq, hrooted⟩ := rows_of_work hm
  exact
    { rooted := hrooted h.rooted
      runs := by rw [db, hruns]; exact h.runs
      tasks := by rw [db, htasks]; exact h.tasks
      open_ := fun t tx htx =>
        (h.open_ t tx htx).transfer (Nat.le_refl _) (by rw [db, htasks]; exact fun q hq => ((h.open_ t tx htx).tasks q hq).2)
          hreq
      apart := h.apart
      looked := by rw [db, htasks]; exact hlooked
      dropped := hdropped }

/-- The steps of a transaction that leave the committed rows alone. -/
theorem Inv.put (h : Inv p) (stream : Stream) {t : ℕ} {tx : Transaction} {nextId : UUID}
    (hid : p.nextId ≤ nextId)
    (hopen : Open { p with nextId, system := { p.system with stream } } tx)
    (hapart : ∀ (i : ℕ) (ux : Transaction), i ≠ t → p.transactions[i]? = some ux →
      ∀ a ∈ tx.tasks, ∀ b ∈ ux.tasks, a.id ≠ b.id) :
    Inv (({ p with nextId, system := { p.system with stream } } : Platform).put t tx) where
  rooted := h.rooted
  runs := fun k hk => Nat.lt_of_lt_of_le (h.runs k hk) hid
  tasks := fun k hk => Nat.lt_of_lt_of_le (h.tasks k hk) hid
  open_ := by
    intro i ux hux
    rcases getElem?_set_cases hux with ⟨-, rfl⟩ | ⟨-, hux⟩
    · exact ⟨hopen.runs, hopen.tasks, hopen.parents⟩
    · exact (h.open_ i ux hux).transfer hid (fun q hq => ((h.open_ i ux hux).tasks q hq).2) rfl
  apart := by
    intro i j ux vx hij hux hvx
    rcases getElem?_set_cases hux with ⟨rfl, rfl⟩ | ⟨hi, hux'⟩
    · rcases getElem?_set_cases hvx with ⟨rfl, -⟩ | ⟨hj, hvx'⟩
      · exact absurd rfl hij
      · exact hapart j vx hj hvx'
    · rcases getElem?_set_cases hvx with ⟨rfl, rfl⟩ | ⟨-, hvx'⟩
      · exact fun a ha b hb he => hapart i ux hi hux' b hb a ha he.symm
      · exact h.apart i j ux vx hij hux' hvx'
  looked := h.looked
  dropped := h.dropped

/-! The rows of a creation. -/

theorem mem_keys_view_runs {tx : Transaction} {db : Database} {k : UUID} :
    k ∈ (tx.view db).testRuns.keys ↔ k ∈ tx.runs.map TestRun.id ∨ k ∈ db.testRuns.keys :=
  Table.mem_keys_foldl_set tx.runs

theorem mem_keys_view_tasks {tx : Transaction} {db : Database} {k : UUID} :
    k ∈ (tx.view db).testTasks.keys ↔ k ∈ tx.tasks.map TestTask.id ∨ k ∈ db.testTasks.keys :=
  Table.mem_keys_foldl_set tx.tasks

theorem Inv.view_runs_lt (h : Inv p) {tx : Transaction} (ho : Open p tx) {k : UUID}
    (hk : k ∈ (tx.view p.db).testRuns.keys) : k < p.nextId := by
  rcases mem_keys_view_runs.1 hk with hk | hk
  · obtain ⟨r, hr, rfl⟩ := List.mem_map.1 hk
    exact ho.runs r hr
  · exact h.runs k hk

theorem Inv.view_tasks_lt (h : Inv p) {tx : Transaction} (ho : Open p tx) {k : UUID}
    (hk : k ∈ (tx.view p.db).testTasks.keys) : k < p.nextId := by
  rcases mem_keys_view_tasks.1 hk with hk | hk
  · obtain ⟨t, ht, rfl⟩ := List.mem_map.1 hk
    exact (ho.tasks t ht).1
  · exact h.tasks k hk

theorem rooted_view {tx : Transaction} (ho : Open p tx) (h : Inv p) : Rooted (tx.view p.db) := by
  intro id row hrow
  rw [Table.get?_isSome_iff (t := (tx.view p.db).testRuns), mem_keys_view_runs]
  rcases Table.mem_rows_foldl_set (Table.get?_eq_some_iff.1 hrow).1 with hrow' | hrow'
  · exact ⟨(ho.parents row hrow').1, .inl (ho.parents row hrow').2⟩
  · obtain ⟨hq, hrun⟩ := h.rooted row.id row (Table.get?_eq_some_iff.2 ⟨hrow', rfl⟩)
    exact ⟨hq, .inr (Table.get?_isSome_iff.1 hrun)⟩

/-- The rows of a plan, whichever caller it is for. -/
theorem planned_of_plan (h : Inv p) {tx : Transaction} (ho : Open p tx) {collectionId initiatedBy : UUID}
    {dataRows : Option (List (Dict String String))} {now : Timestamp} {run : TestRun}
    {tasks : List TestTask} {s : Session}
    (hplan : p.plan tx collectionId initiatedBy dataRows now = (.ok (run, tasks), s)) :
    Planned (p.session tx now) s run tasks := by
  have hruns : ∀ r ∈ (p.session tx now).db.testRuns.rows, r.id < (p.session tx now).nextId :=
    fun r hr => h.view_runs_lt ho (List.mem_map_of_mem hr)
  have htasks : ∀ t ∈ (p.session tx now).db.testTasks.rows, t.id < (p.session tx now).nextId :=
    fun t ht => h.view_tasks_lt ho (List.mem_map_of_mem ht)
  unfold plan at hplan
  split at hplan <;>
  · obtain ⟨hreq, ⟨c, hc⟩, hu⟩ := planRun_ok rfl hplan
    obtain ⟨config, s', hrun, hplanned⟩ := planRun_run _ _ rfl hruns htasks hreq hc hu
    rw [hrun] at hplan
    obtain ⟨hp, rfl⟩ := Prod.mk.inj hplan
    obtain ⟨rfl, rfl⟩ := Prod.mk.inj (Except.ok.inj hp)
    exact hplanned

theorem nextId_le_of_plan (h : Inv p) {tx : Transaction} (ho : Open p tx) {collectionId initiatedBy : UUID}
    {dataRows : Option (List (Dict String String))} {now : Timestamp} {exc : Exn} {s : Session}
    (hplan : p.plan tx collectionId initiatedBy dataRows now = (.error exc, s)) : p.nextId ≤ s.nextId := by
  have hruns : ∀ r ∈ (p.session tx now).db.testRuns.rows, r.id < (p.session tx now).nextId :=
    fun r hr => h.view_runs_lt ho (List.mem_map_of_mem hr)
  have htasks : ∀ t ∈ (p.session tx now).db.testTasks.rows, t.id < (p.session tx now).nextId :=
    fun t ht => h.view_tasks_lt ho (List.mem_map_of_mem ht)
  unfold plan at hplan
  split at hplan <;> exact planRun_nextId_le (s := p.session tx now) rfl hplan hruns htasks

/-- The new rows are as new to the transaction as to everybody else. -/
theorem open_planned (h : Inv p) {tx : Transaction} (ho : Open p tx) {now : Timestamp} {run : TestRun}
    {tasks : List TestTask} {s : Session} {stage : Stage} (hp : Planned (p.session tx now) s run tasks) :
    Open { p with nextId := s.nextId }
      { tx with stage, runs := tx.runs ++ [run], tasks := tx.tasks ++ tasks } := by
  have hid : run.id = p.nextId := hp.runId
  have hnext : s.nextId = p.nextId + 1 + tasks.length := hp.nextId
  have hle : p.nextId ≤ s.nextId := by
    rw [hnext, Nat.add_assoc]
    exact Nat.le_add_right _ _
  have hbounds : ∀ t ∈ tasks, p.nextId < t.id ∧ t.id < s.nextId := by
    intro t ht
    have ht' : t.id ∈ tasks.map TestTask.id := List.mem_map_of_mem ht
    rw [hp.taskIds, List.mem_range'_1] at ht'
    exact ⟨ht'.1, hnext ▸ ht'.2⟩
  refine ⟨fun r hr => ?_, fun t ht => ?_, fun t ht => ?_⟩
  · rcases List.mem_append.1 hr with hr | hr
    · exact Nat.lt_of_lt_of_le (ho.runs r hr) hle
    · rw [List.mem_singleton.1 hr, hid]
      change p.nextId < s.nextId
      rw [hnext, Nat.add_assoc, Nat.add_comm 1]
      exact Nat.lt_add_of_pos_right (Nat.succ_pos _)
  · rcases List.mem_append.1 ht with ht | ht
    · exact ⟨Nat.lt_of_lt_of_le (ho.tasks t ht).1 hle, (ho.tasks t ht).2⟩
    · refine ⟨(hbounds t ht).2, fun hmem => ?_⟩
      exact absurd ((h.tasks t.id hmem).trans (hbounds t ht).1) (Nat.lt_irrefl _)
  · rw [List.map_append, List.mem_append]
    rcases List.mem_append.1 ht with ht | ht
    · exact ⟨(ho.parents t ht).1, .inl (ho.parents t ht).2⟩
    · refine ⟨hp.requests t ht, .inr ?_⟩
      have hrun : t.testRunId = p.nextId := hp.taskRuns t ht
      rw [hrun, ← hid]
      exact List.mem_cons_self

/-- A commit makes the rows of the transaction everybody's. -/
theorem Inv.commit (h : Inv p) {t : ℕ} {tx : Transaction} (htx : p.transactions[t]? = some tx) :
    Inv (({ p with
      system := { p.system with stores := { p.system.stores with db := tx.view p.db } } } : Platform).put t
      tx.close) where
  rooted := rooted_view (h.open_ t tx htx) h
  runs := fun _ hk => h.view_runs_lt (h.open_ t tx htx) hk
  tasks := fun _ hk => h.view_tasks_lt (h.open_ t tx htx) hk
  open_ := by
    intro i ux hux
    rcases getElem?_set_cases hux with ⟨-, rfl⟩ | ⟨hi, hux'⟩
    · exact open_close tx
    · refine (h.open_ i ux hux').transfer (Nat.le_refl _) (fun q hq hmem => ?_) rfl
      rcases mem_keys_view_tasks.1 hmem with hmem | hmem
      · obtain ⟨q', hq', he⟩ := List.mem_map.1 hmem
        exact h.apart i t ux tx hi hux' htx q hq q' hq' he.symm
      · exact ((h.open_ i ux hux').tasks q hq).2 hmem
  apart := by
    intro i j ux vx hij hux hvx a ha b hb
    rcases getElem?_set_cases hux with ⟨-, rfl⟩ | ⟨-, hux'⟩
    · exact absurd ha List.not_mem_nil
    · rcases getElem?_set_cases hvx with ⟨-, rfl⟩ | ⟨-, hvx'⟩
      · exact absurd hb List.not_mem_nil
      · exact h.apart i j ux vx hij hux' hvx' a ha b hb
  looked := by
    intro id hid
    exact (h.looked id hid).imp_right fun hmem => mem_keys_view_tasks.2 (.inr hmem)
  dropped := h.dropped

theorem Inv.lookups (h : Inv p) (looked : List UUID) :
    ∀ id ∈ p.lookups ++ looked,
      id ∈ p.dropped ++ (looked.filter fun id => (loadTask p.db id).toOption.isNone) ∨ id ∈ p.db.testTasks.keys := by
  intro id hid
  rcases List.mem_append.1 hid with hid | hid
  · exact (h.looked id hid).imp_left (List.mem_append_left _)
  · rcases hload : loadTask p.db id with e | v
    · exact .inl (List.mem_append_right _ (List.mem_filter.2 ⟨hid, by rw [hload]; rfl⟩))
    · exact .inr (mem_keys_of_loadTask hload)

theorem Inv.step (h : Inv p) (hm : Move lib rateLimiter p a p') : Inv p' := by
  cases hm with
  | work hwork =>
    refine h.work hwork (h.lookups _) fun id hid => ?_
    rcases List.mem_append.1 hid with hid | hid
    · exact List.mem_append_left _ (h.dropped id hid)
    · exact List.mem_append_right _ (List.mem_of_mem_filter hid)
  | @begin kind =>
    have hnew : ∀ (t : ℕ) (tx : Transaction), (p.transactions ++ [⟨kind, .ready, [], []⟩])[t]? = some tx →
        p.transactions[t]? = some tx ∨ tx.runs = [] ∧ tx.tasks = [] := by
      intro t tx htx
      rw [List.getElem?_append] at htx
      split at htx
      · exact .inl htx
      · obtain rfl := List.mem_singleton.1 (List.mem_of_getElem? htx)
        exact .inr ⟨rfl, rfl⟩
    refine ⟨h.rooted, h.runs, h.tasks, fun t tx htx => ?_, fun i j tx ux hij htx hux => ?_, h.looked,
      h.dropped⟩
    · rcases hnew t tx htx with htx | ⟨hruns, htasks⟩
      · exact (h.open_ t tx htx).transfer (Nat.le_refl _) (fun q hq => ((h.open_ t tx htx).tasks q hq).2) rfl
      · exact ⟨by simp [hruns], by simp [htasks], by simp [htasks]⟩
    · rcases hnew i tx htx with htx | ⟨-, htasks⟩
      · rcases hnew j ux hux with hux | ⟨-, htasks⟩
        · exact h.apart i j tx ux hij htx hux
        · simp [htasks]
      · simp [htasks]
  | @planned t _ _ _ _ tx run tasks s htx hplan =>
    have ho := h.open_ t tx htx
    have hp := planned_of_plan h ho hplan
    have hle : p.nextId ≤ s.nextId := by
      have hnext : s.nextId = p.nextId + 1 + tasks.length := hp.nextId
      rw [hnext, Nat.add_assoc]
      exact Nat.le_add_right _ _
    refine h.put p.system.stream hle (open_planned h ho hp) fun i ux hi hux a ha b hb he => ?_
    rcases List.mem_append.1 ha with ha | ha
    · exact h.apart t i tx ux hi.symm htx hux a ha b hb he
    · have ha' : a.id ∈ tasks.map TestTask.id := List.mem_map_of_mem ha
      rw [hp.taskIds, List.mem_range'_1, he] at ha'
      exact absurd (Nat.lt_of_lt_of_le ((h.open_ i ux hux).tasks b hb).1 (Nat.le_of_succ_le ha'.1)) (Nat.lt_irrefl _)
  | @unplanned t _ _ _ _ tx exc s stage htx hplan =>
    have ho := h.open_ t tx htx
    have hle := nextId_le_of_plan h ho hplan
    refine h.put p.system.stream hle ?_ fun i ux hi hux => h.apart t i tx ux hi.symm htx hux
    exact (ho.stage stage).transfer hle (fun q hq => (ho.tasks q hq).2) rfl
  | @ensureGroup t _ tx stage htx =>
    exact h.put p.system.stream (Nat.le_refl _) ((h.open_ t tx htx).stage stage)
      fun i ux hi hux => h.apart t i tx ux hi.symm htx hux
  | @enqueue t _ tx stage stream htx =>
    have ho := h.open_ t tx htx
    refine h.put stream (Nat.le_refl _) ?_ fun i ux hi hux => h.apart t i tx ux hi.symm htx hux
    exact (ho.stage stage).transfer (Nat.le_refl _) (fun q hq => (ho.tasks q hq).2) rfl
  | @commit t call tx htx =>
    cases call.tookEffect with
    | true => exact h.commit htx
    | false => exact h.put p.system.stream (Nat.le_refl _) (open_close tx) fun i ux _ _ a ha => absurd ha List.not_mem_nil
  | @rollback t tx htx =>
    exact h.put p.system.stream (Nat.le_refl _) (open_close tx) fun i ux _ _ a ha => absurd ha List.not_mem_nil

/-- Nothing is lost in a step but by a commit that comes too late. -/
theorem NoneLost.step (h : Inv p) (hn : NoneLost p) (hc : CommitsFirst p a)
    (hm : Move lib rateLimiter p a p') : NoneLost p' := by
  cases hm with
  | work hwork =>
    intro id hid
    rw [db, (rows_of_work hwork).1]
    rcases List.mem_append.1 hid with hid | hid
    · exact hn id hid
    · exact not_mem_keys_of_loadTask h.rooted (List.mem_filter.1 hid).2
  | @commit t call tx htx =>
    intro id hid hmem
    change id ∈ (if call.tookEffect then tx.view p.db else p.db).testTasks.keys at hmem
    split at hmem
    · rename_i hcall
      rcases mem_keys_view_tasks.1 hmem with hmem | hmem
      · obtain ⟨task, htask, rfl⟩ := List.mem_map.1 hmem
        exact hc t call tx rfl hcall htx task htask (h.dropped task.id hid)
      · exact hn id hid hmem
    · exact hn id hid hmem
  | begin => exact hn
  | planned => exact hn
  | unplanned => exact hn
  | ensureGroup => exact hn
  | enqueue => exact hn
  | rollback => exact hn

/-- A commit that comes too late loses the task that was looked up. -/
theorem commitsFirst_of_noneLost (h : Inv p) (hm : Move lib rateLimiter p a p') (hn : NoneLost p') :
    CommitsFirst p a := by
  rintro t call tx rfl hcall htx task htask hlooked
  have hfresh := ((h.open_ t tx htx).tasks task htask).2
  have hdropped : task.id ∈ p.dropped := (h.looked task.id hlooked).resolve_right hfresh
  cases hm with
  | @commit _ _ ux hux =>
    obtain rfl : tx = ux := Option.some.inj (htx.symm.trans hux)
    refine hn task.id hdropped ?_
    change task.id ∈ (if call.tookEffect then tx.view p.db else p.db).testTasks.keys
    rw [if_pos hcall]
    exact mem_keys_view_tasks.2 (.inl (List.mem_map_of_mem htask))

end

/-- On every run, no dropped task is ever committed exactly where every transaction
commits its tasks before a worker looks one of them up. -/
theorem always_noneLost_iff (lib : Libraries) (rateLimiter : Bool) (p₀ p : Platform) (as : List PlatformAction)
    (h : p₀.Start) (hr : Run (step lib rateLimiter) p₀ as p) :
    Always (step lib rateLimiter) NoneLost p₀ as ↔ Each (step lib rateLimiter) CommitsFirst p₀ as := by
  refine hr.always_iff_each (by simp [NoneLost, h.dropped]) h.inv ?_ ?_
  · intro p a p' _ hinv hs
    exact hinv.step (move_of_step hs)
  · intro p a p' hn hinv hs
    exact ⟨commitsFirst_of_noneLost hinv (move_of_step hs), fun hc => hn.step hinv hc (move_of_step hs)⟩

/-- A collection with one request, and an idle worker. -/
def oneWorker : Platform where
  system :=
    launch
      { Database.empty with
        users := Table.empty.set ⟨1, "ann@example.com"⟩
        projects := Table.empty.set ⟨2, 0, "Billing", none, 1, 0⟩
        collections := Table.empty.set ⟨0, 2, "Smoke", none, 0⟩
        apiRequests := Table.empty.set (plainRequest 3) } 1
  nextId := 4
  transactions := []
  lookups := []
  dropped := []

theorem start_oneWorker : oneWorker.Start where
  parents := fun _ ht => absurd ht List.not_mem_nil
  runs := fun _ hr => absurd hr List.not_mem_nil
  tasks := fun _ ht => absurd ht List.not_mem_nil
  transactions := rfl
  lookups := rfl
  dropped := rfl

/-- A request that creates a run, as far as its commit. -/
def creating : List PlatformAction := [.begin .request, .create 0 0 1 none 0, .ensureGroup 0 .ok, .enqueue 0 .ok]

/-- The commit comes first. -/
def inTime : List PlatformAction := creating ++ [.commit 0 .ok, .work (.consume 0 10 0), .work (.slot 0 0 .load)]

theorem always_noneLost_inTime :
    Always (step plainLibraries false) NoneLost oneWorker inTime ↔
      Each (step plainLibraries false) CommitsFirst oneWorker inTime :=
  always_noneLost_iff plainLibraries false oneWorker _ inTime start_oneWorker (run_final inTime rfl)

/-- The worker is through with the entry before the commit. -/
def tooEarly : List PlatformAction :=
  creating ++ [.work (.consume 0 10 0), .work (.slot 0 0 .load), .work (.gather 0), .work (.ack 0 .ok), .commit 0 .ok]

theorem not_noneLost_tooEarly :
    oneWorker.Start ∧ ¬ Always (step plainLibraries false) NoneLost oneWorker tooEarly := by
  refine ⟨start_oneWorker, fun hall => ?_⟩
  have hr : Run (step plainLibraries false) oneWorker tooEarly _ := run_final tooEarly rfl
  have hdropped : 5 ∈ (final (step plainLibraries false) oneWorker tooEarly).dropped := List.mem_cons_self
  have hrow : 5 ∈ (final (step plainLibraries false) oneWorker tooEarly).db.testTasks.keys := List.mem_cons_self
  exact hall.last hr 5 hdropped hrow

end Platform

end ApiTesting
