import ApiTesting.Proofs.AllOrNothing

/-! A sweep of the cron scheduler among failures. A creation may raise before it has
changed anything, or in a flush, which takes the session down with it, and somebody
else may delete a schedule after `list_due`. Where its calls to Redis raise is up to
the surroundings. -/

namespace ApiTesting

open Keyed ServiceM Fallible

/-- How a creation is made to fail: before its first flush, or because the database
refuses one of its statements. -/
inductive CreationFault
  | raises (exc : Exn)
  | refused (exc : Exn)

/-- Which creations are made to fail, and which rows are gone when the sweep comes to
update them, by the id of the schedule. -/
structure Faults where
  creation : UUID → Option CreationFault
  deleted : UUID → Bool

namespace Faults

def none : Faults := ⟨fun _ => .none, fun _ => false⟩

/-- The call of `create_scheduled_run`. -/
def create (faults : Faults) (schedule : Schedule) : ServiceM TestRun :=
  match faults.creation schedule.id with
  | .none => TestRunService.createScheduledRun schedule.collectionId schedule.createdBy
  | some (.raises exc) => throw exc
  | some (.refused exc) => do
    flush fun _ => .error exc
    throw exc

/-- A transaction of somebody else that deletes the row. -/
def interfere (faults : Faults) (schedule : Schedule) : ServiceM Unit := fun s =>
  (.ok (),
    if faults.deleted schedule.id then
      { s with
        db := { s.db with schedules := s.db.schedules.erase schedule.id }
        committed := { s.committed with schedules := s.committed.schedules.erase schedule.id } }
    else s)

/-- What a round does after its handler. -/
def advance (lib : Libraries) (faults : Faults) (schedule : Schedule) : ServiceM Unit := do
  faults.interfere schedule
  let nextRunAt ← computeNextRunAt lib schedule.cronExpression schedule.timezone
  let _ ← ScheduleRepository.update
    { schedule with lastRunAt := some (← now), nextRunAt := some nextRunAt }
  return ()

/-- The rounds up to one that raises, with how the creation in each of them ended. -/
def rounds (lib : Libraries) (faults : Faults) :
    List Schedule → Session → List (Schedule × Except Exn TestRun) × Except Exn Unit × Session
  | [], s => ([], .ok (), s)
  | schedule :: rest, s =>
    let (created, s) := faults.create schedule s
    match faults.advance lib schedule s with
    | (.error exc, s) => ([(schedule, created)], .error exc, s)
    | (.ok (), s) =>
      let (calls, ended, s) := faults.rounds lib rest s
      ((schedule, created) :: calls, ended, s)

/-- The sweep: its creations, and what is there afterwards. -/
def sweep (lib : Libraries) (faults : Faults) (batchSize : ℕ) (x : Surroundings) (w : World) :
    List (Schedule × Except Exn TestRun) × World :=
  let due := w.db.dueSchedules x.ties x.now batchSize
  if due.isEmpty then ([], w)
  else
    match faults.rounds lib due (w.session x) with
    | (calls, .error _, s) => (calls, s.close)
    | (calls, .ok (), s) => (calls, (commit s).2.close)

end Faults

/-- The row of the schedule is there, with an occurrence in the future. -/
def World.Advanced (w : World) (now : Timestamp) (id : UUID) : Prop :=
  ∃ row next, w.db.schedules.get? id = some row ∧ row.nextRunAt = some next ∧ now < next

/-- In `w'` the run is there that was created for the schedule. -/
structure World.Triggered (w w' : World) (schedule : Schedule) (run : TestRun) : Prop where
  new : w.db.testRuns.get? run.id = none
  row : w'.db.testRuns.get? run.id = some run
  collectionId : run.collectionId = schedule.collectionId
  initiatedBy : run.initiatedBy = schedule.createdBy
  runType : run.runType = .scheduled
  complete : w'.Complete run (w.db.requestsOf schedule.collectionId) none

/-- Every schedule that is still there has been advanced, and has its run unless its own
creation raised. -/
structure Isolated (faults : Faults) (now : Timestamp) (due : List Schedule)
    (calls : List (Schedule × Except Exn TestRun)) (w w' : World) : Prop where
  advanced : ∀ sc ∈ due, faults.deleted sc.id = false → w'.Advanced now sc.id
  triggered : ∀ sc ∈ due, faults.deleted sc.id = false →
    (∃ exc, (sc, .error exc) ∈ calls) ∨ ∃ run, (sc, .ok run) ∈ calls ∧ w.Triggered w' sc run

/-- The round of the schedule takes nothing down with it. -/
structure Harmless (lib : Libraries) (faults : Faults) (now : Timestamp) (sc : Schedule) : Prop where
  timed : Timed lib now sc
  accepted : ∀ exc, faults.creation sc.id ≠ some (.refused exc)
  there : faults.deleted sc.id = false

section
variable {w : World} {x : Surroundings} {s s' : Session} {lib : Libraries} {faults : Faults}
  {sc : Schedule}

/-! Without failures it is the sweep of the scheduler. -/

theorem interfere_none (sc : Schedule) : Faults.none.interfere sc = pure () := rfl

theorem triggerSchedule_eq (sc : Schedule) :
    triggerSchedule lib sc = (do
      let triggered ← tryCatch (do let _ ← Faults.none.create sc; pure true) fun _ => pure false
      let _ ← Faults.none.advance lib sc
      return triggered) := by
  unfold triggerSchedule Faults.advance
  rw [interfere_none]
  simp only [bind_assoc, pure_bind]
  rfl

theorem triggerSchedule_run (sc : Schedule) {created : Except Exn TestRun} {ended : Except Exn Unit}
    {s₁ s₂ : Session} (hcreate : Faults.none.create sc s = (created, s₁))
    (hadvance : Faults.none.advance lib sc s₁ = (ended, s₂)) :
    triggerSchedule lib sc s = (ended.map fun _ => created.isOk, s₂) := by
  have hbody := bind_return hcreate true
  rw [triggerSchedule_eq]
  cases created with
  | ok run => exact (bind_of_ok _ (tryCatch_of_ok _ hbody)).trans (bind_return hadvance true)
  | error exc => exact (bind_of_ok _ (tryCatch_of_error _ hbody)).trans (bind_return hadvance false)

theorem triggerAll_eq_rounds (lib : Libraries) (due : List Schedule) (k : ℕ) (s : Session) :
    triggerAll lib due k s =
      ((Faults.none.rounds lib due s).2.1.map fun _ =>
          k + (Faults.none.rounds lib due s).1.countP fun call => call.2.isOk,
        (Faults.none.rounds lib due s).2.2) := by
  induction due generalizing k s with
  | nil => rfl
  | cons sc due ih =>
    rcases hcreate : Faults.none.create sc s with ⟨created, s₁⟩
    rcases hadvance : Faults.none.advance lib sc s₁ with ⟨ended, s₂⟩
    have hrun := triggerSchedule_run sc hcreate hadvance
    rw [triggerAll, Faults.rounds, hcreate]
    simp only [hadvance]
    cases ended with
    | error exc => exact bind_of_error _ hrun
    | ok u =>
      rw [bind_of_ok _ hrun, ih]
      cases created with
      | ok run => simp [Except.isOk, Except.toBool, Nat.add_assoc, Nat.add_comm 1]
      | error exc => simp [Except.isOk, Except.toBool]

theorem transact_cronSweepOnce (batchSize : ℕ) :
    (transact (cronSweepOnce lib batchSize) x w).2 = (Faults.none.sweep lib batchSize x w).2 := by
  unfold transact Faults.sweep
  rcases hdue : w.db.dueSchedules x.ties x.now batchSize with _ | ⟨sc, due⟩
  · have hempty : cronSweepOnce lib batchSize (w.session x) = _ := cronSweepOnce_eq rfl hdue
    rw [hempty]
    rfl
  · have heq : cronSweepOnce lib batchSize (w.session x) = _ := cronSweepOnce_eq rfl hdue
    have hall := triggerAll_eq_rounds lib (sc :: due) 0 (w.session x)
    rcases hrounds : Faults.none.rounds lib (sc :: due) (w.session x) with ⟨calls, ended, s'⟩
    rw [hrounds] at hall
    cases ended with
    | error exc =>
      have hrun : cronSweepOnce lib batchSize (w.session x) = (.error exc, s') :=
        heq.trans (bind_of_error _ hall)
      rw [hrun]
      simp only [List.isEmpty_cons, Bool.false_eq_true, if_false, hrounds]
    | ok u =>
      rcases hcommit : commit s' with ⟨r, s''⟩
      have hrun : cronSweepOnce lib batchSize (w.session x) = (r.map fun _ => _, s'') :=
        heq.trans ((bind_of_ok _ hall).trans (bind_return hcommit _))
      rw [hrun]
      simp only [List.isEmpty_cons, Bool.false_eq_true, if_false, hrounds, hcommit]

/-! A round that is harmless. -/

/-- What later rounds do not undo. -/
structure Carried (w : World) (now : Timestamp) (s s' : Session) : Prop where
  advanced : ∀ id, s.view.Advanced now id → s'.view.Advanced now id
  triggered : ∀ sc run, w.Triggered s.view sc run → w.Triggered s'.view sc run

theorem Carried.trans {s'' : Session} {now : Timestamp} (h : Carried w now s s') (h' : Carried w now s' s'') :
    Carried w now s s'' :=
  ⟨fun id ha => h'.advanced id (h.advanced id ha), fun sc run ht => h'.triggered sc run (h.triggered sc run ht)⟩

theorem World.Triggered.congr {u v : World} {run : TestRun} (h : w.Triggered u sc run)
    (hruns : v.db.testRuns = u.db.testRuns) (htasks : v.db.testTasks = u.db.testTasks)
    (hstream : v.stream = u.stream) : w.Triggered v sc run where
  new := h.new
  row := by rw [hruns]; exact h.row
  collectionId := h.collectionId
  initiatedBy := h.initiatedBy
  runType := h.runType
  complete :=
    { totalTasks := h.complete.totalTasks
      tasks := by rw [htasks]; exact h.complete.tasks
      enqueued := by rw [htasks, hstream]; exact h.complete.enqueued }

/-- A creation undoes nothing. -/
theorem Creation.carried {run : TestRun} {tasks : List TestTask} {sent : List UUID} {now : Timestamp}
    (h : Creation s s' run tasks sent) (hs : s.view.Sound) : Carried w now s s' where
  advanced := by
    rintro id ⟨row, next, hrow, hnext, hlt⟩
    refine ⟨row, next, ?_, hnext, hlt⟩
    change s'.db.schedules.get? id = some row
    rw [h.tables]
    exact hrow
  triggered := by
    intro sc run' ht
    have hmem := Table.get?_eq_some_iff.1 ht.row
    have hid : run'.id ≠ s.nextId := Nat.ne_of_lt (hs.runs run' hmem.1)
    exact { ht with
      row := (h.get?_run run'.id hid).trans ht.row
      complete := h.complete_old hs hid ht.complete }

/-- What a creation that is not refused does. -/
structure Created (w : World) (x : Surroundings) (sc : Schedule) (created : Except Exn TestRun)
    (s s' : Session) : Prop where
  since : Since w x s'
  carried : Carried w x.now s s'
  triggered : ∀ run, created = .ok run → w.Triggered s'.view sc run

theorem create_run (h : Since w x s) (hw : w.Sound) (hsc : sc ∈ w.db.schedules.rows)
    (hf : ∀ exc, faults.creation sc.id ≠ some (.refused exc)) :
    ∃ created s', faults.create sc s = (created, s') ∧ Created w x sc created s s' := by
  unfold Faults.create
  have hstay : ∀ exc, Created w x sc (.error exc) s s := fun exc =>
    { since := h, carried := ⟨fun _ => id, fun _ _ => id⟩, triggered := by rintro run ⟨⟩ }
  rcases hfault : faults.creation sc.id with _ | exc | exc
  · by_cases hreq : w.db.requestsOf sc.collectionId = []
    · exact ⟨_, s, createRunFor_empty h.failed (by rw [h.requestsOf, hreq]), hstay _⟩
    · obtain ⟨hcol, hu⟩ := hw.schedules sc hsc
      obtain ⟨c, hcol⟩ := Option.isSome_iff_exists.1 hcol
      obtain ⟨r, s', config, sent, hrun, hc, hiff, hok, -⟩ :=
        createRunFor_run .scheduled none h.failed h.sound
          (by rw [h.requestsOf]; exact hreq) (by rw [h.collections]; exact hcol) (by rw [h.users]; exact hu)
      refine ⟨r, s', hrun, h.creation hc, hc.carried h.sound, fun run hr => ?_⟩
      obtain ⟨rfl, hreached⟩ := hok run hr
      exact
        { new := by
            change w.db.testRuns.get? s.nextId = none
            rw [Table.get?_eq_none_iff]
            intro hmem
            obtain ⟨q, hq, hid⟩ := List.mem_map.1 hmem
            exact absurd (Nat.lt_of_lt_of_le (hid ▸ hw.runs q hq) h.nextId) (Nat.lt_irrefl _)
          row := by
            refine Table.get?_eq_some_iff.2 ⟨?_, rfl⟩
            change _ ∈ s'.db.testRuns.rows
            rw [hc.runRows]
            exact List.mem_append_right _ List.mem_cons_self
          collectionId := rfl
          initiatedBy := rfl
          runType := rfl
          complete := by
            refine hc.complete_new h.sound (hiff.2 hreached) ?_ ?_
            · rw [plannedRun, h.requestsOf, length_rowsOf]
            · rw [plannedTasks, map_assignIds (fun _ _ => rfl), origin_pendingTasks, h.requestsOf] }
  · exact ⟨_, s, rfl, hstay exc⟩
  · exact absurd hfault (hf exc)

theorem advance_run {nextRunAt : Timestamp} (h : Since w x s) (hw : w.Sound) (hsc : sc ∈ w.db.schedules.rows)
    (hcron : lib.cronNext sc.cronExpression sc.timezone x.now = .ok nextRunAt) (hlt : x.now < nextRunAt)
    (hd : faults.deleted sc.id = false) :
    ∃ s', faults.advance lib sc s = (.ok (), s') ∧ Since w x s' ∧ s'.view.Advanced x.now sc.id ∧
      Carried w x.now s s' := by
  set moved : Schedule := { sc with lastRunAt := some s.now, nextRunAt := some nextRunAt } with hmoved
  have hrow : updateRow s.db.schedules moved = .ok (s.db.schedules.set moved) :=
    if_pos (h.schedules sc hsc)
  have hstill : faults.interfere sc s = (.ok (), s) := by
    unfold Faults.interfere
    rw [hd]
    rfl
  have hcron' : lib.cronNext sc.cronExpression sc.timezone s.now = .ok nextRunAt := by rw [h.now, hcron]
  have hget : ∀ id, (s.db.schedules.set moved).get? id =
      if id = sc.id then some moved else s.db.schedules.get? id := Table.get?_set _ moved
  refine ⟨{ s with db := { s.db with schedules := s.db.schedules.set moved } }, ?_,
    h.schedule hw hsc rfl rfl, ⟨moved, nextRunAt, (hget sc.id).trans (if_pos rfl), rfl, hlt⟩, ?_, ?_⟩
  · unfold Faults.advance ScheduleRepository.update
    rw [bind_of_ok _ hstill, bind_of_ok _ (computeNextRunAt_run hcron'), bind_of_ok _ now_run]
    refine bind_of_ok _ (bind_of_ok (a := ()) _ (flush_run h.failed ?_))
    rw [← hmoved, hrow]
    rfl
  · rintro id ⟨row, next, hget', hnext, hlt'⟩
    by_cases hid : id = sc.id
    · exact ⟨moved, nextRunAt, (hget id).trans (if_pos hid), rfl, hlt⟩
    · exact ⟨row, next, (hget id).trans ((if_neg hid).trans hget'), hnext, hlt'⟩
  · exact fun _ _ ht => ht.congr rfl rfl rfl

/-- The next occurrence the library returns lies ahead. -/
def Libraries.Ahead (lib : Libraries) : Prop :=
  ∀ expression timezone now next, lib.cronNext expression timezone now = .ok next → now < next

/-- Where all rounds are harmless, all are made, and each does its work. -/
theorem rounds_run (due : List Schedule) (hahead : lib.Ahead) (hw : w.Sound)
    (hdue : ∀ sc ∈ due, sc ∈ w.db.schedules.rows) (hall : ∀ sc ∈ due, Harmless lib faults x.now sc)
    (h : Since w x s) :
    ∃ calls s', faults.rounds lib due s = (calls, .ok (), s') ∧ Since w x s' ∧ Carried w x.now s s' ∧
      ∀ sc ∈ due, s'.view.Advanced x.now sc.id ∧
        ((∃ exc, (sc, .error exc) ∈ calls) ∨ ∃ run, (sc, .ok run) ∈ calls ∧ w.Triggered s'.view sc run) := by
  induction due generalizing s with
  | nil => exact ⟨[], s, rfl, h, ⟨fun _ => id, fun _ _ => id⟩, by simp⟩
  | cons sc due ih =>
    have hsc := hdue sc List.mem_cons_self
    have hharm := hall sc List.mem_cons_self
    obtain ⟨next, hcron⟩ := hharm.timed
    obtain ⟨created, s₁, hcreate, hcreated⟩ := create_run h hw hsc hharm.accepted
    obtain ⟨s₂, hadvance, hsince, hadvanced, hcarried⟩ := advance_run hcreated.since hw hsc hcron
      (hahead _ _ _ _ hcron) hharm.there
    obtain ⟨calls, s', hrest, hsince', hcarried', hdone⟩ := ih
      (fun q hq => hdue q (List.mem_cons_of_mem _ hq)) (fun q hq => hall q (List.mem_cons_of_mem _ hq)) hsince
    refine ⟨(sc, created) :: calls, s', ?_, hsince', (hcreated.carried.trans hcarried).trans hcarried', ?_⟩
    · rw [Faults.rounds, hcreate]
      simp only [hadvance, hrest]
    · intro q hq
      rcases List.mem_cons.1 hq with rfl | hq
      · refine ⟨hcarried'.advanced _ hadvanced, ?_⟩
        cases created with
        | error exc => exact .inl ⟨exc, List.mem_cons_self⟩
        | ok run =>
          exact .inr ⟨run, List.mem_cons_self,
            hcarried'.triggered _ _ (hcarried.triggered _ _ (hcreated.triggered run rfl))⟩
      · obtain ⟨hq₁, hq₂⟩ := hdone q hq
        refine ⟨hq₁, hq₂.imp ?_ ?_⟩
        · exact fun ⟨exc, hmem⟩ => ⟨exc, List.mem_cons_of_mem _ hmem⟩
        · exact fun ⟨run, hmem, ht⟩ => ⟨run, List.mem_cons_of_mem _ hmem, ht⟩

/-! A round that is not. -/

/-- A session that has failed, or a row that is gone, ends the sweep. -/
theorem advance_raise (h : s.failed = true ∨ faults.deleted sc.id = true ∨ ¬ Timed lib s.now sc) :
    ∃ exc s', faults.advance lib sc s = (.error exc, s') := by
  unfold Faults.advance
  obtain ⟨s₁, hinterfere, hfailed, hnow, hgone⟩ : ∃ s₁, faults.interfere sc s = (.ok (), s₁) ∧
      s₁.failed = s.failed ∧ s₁.now = s.now ∧
      (faults.deleted sc.id = true → s₁.db.schedules.get? sc.id = none) := by
    unfold Faults.interfere
    split
    · refine ⟨_, rfl, rfl, rfl, fun _ => ?_⟩
      rw [Table.get?_eq_none_iff, Table.mem_keys_erase]
      exact fun hmem => hmem.2 rfl
    · rename_i hnot
      exact ⟨s, rfl, rfl, rfl, fun hd => absurd hd hnot⟩
  rw [bind_of_ok _ hinterfere]
  rcases hcron : lib.cronNext sc.cronExpression sc.timezone s₁.now with exc | next
  · exact ⟨exc.val, s₁, bind_of_error _ (computeNextRunAt_raise hcron)⟩
  · rw [bind_of_ok _ (computeNextRunAt_run hcron), bind_of_ok _ now_run]
    unfold ScheduleRepository.update
    cases hf : s₁.failed with
    | true =>
      refine ⟨pendingRollbackError, s₁, bind_of_error _ (bind_of_error _ ?_)⟩
      unfold flush
      rw [hf]
      rfl
    | false =>
      rw [hnow] at hcron
      rcases h with h | h | h
      · rw [← hfailed, hf] at h
        cases h
      · refine ⟨staleDataError, _, bind_of_error _ (bind_of_error _ (flush_raise hf ?_))⟩
        change (if (s₁.db.schedules.get? sc.id).isSome = true then Except.ok _ else .error staleDataError) >>= _ = _
        rw [if_neg (by rw [hgone h]; simp)]
        rfl
      · exact absurd ⟨next, hcron⟩ h

/-- One round that is not harmless ends the sweep. -/
theorem rounds_raise (due : List Schedule) (hahead : lib.Ahead) (hw : w.Sound)
    (hdue : ∀ sc ∈ due, sc ∈ w.db.schedules.rows) (hsome : ∃ sc ∈ due, ¬ Harmless lib faults x.now sc)
    (h : Since w x s) : ∃ calls exc s', faults.rounds lib due s = (calls, .error exc, s') := by
  induction due generalizing s with
  | nil => simp at hsome
  | cons sc due ih =>
    have hsc := hdue sc List.mem_cons_self
    by_cases hharm : Harmless lib faults x.now sc
    · obtain ⟨next, hcron⟩ := hharm.timed
      obtain ⟨created, s₁, hcreate, hcreated⟩ := create_run h hw hsc hharm.accepted
      obtain ⟨s₂, hadvance, hsince, -⟩ := advance_run hcreated.since hw hsc hcron
        (hahead _ _ _ _ hcron) hharm.there
      obtain ⟨q, hq, hnot⟩ := hsome
      rcases List.mem_cons.1 hq with rfl | hq
      · exact absurd hharm hnot
      · obtain ⟨calls, exc, s', hrest⟩ := ih (fun q hq => hdue q (List.mem_cons_of_mem _ hq)) ⟨q, hq, hnot⟩ hsince
        refine ⟨(sc, created) :: calls, exc, s', ?_⟩
        rw [Faults.rounds, hcreate]
        simp only [hadvance, hrest]
    · have hbad : ∃ created s₁, faults.create sc s = (created, s₁) ∧
          (s₁.failed = true ∨ faults.deleted sc.id = true ∨ ¬ Timed lib s₁.now sc) := by
        by_cases hrefused : ∃ exc, faults.creation sc.id = some (.refused exc)
        · obtain ⟨exc, hrefused⟩ := hrefused
          refine ⟨.error exc, { s with failed := true }, ?_, .inl rfl⟩
          unfold Faults.create
          rw [hrefused]
          exact bind_of_error _ (flush_raise h.failed rfl)
        · obtain ⟨created, s₁, hcreate, hcreated⟩ := create_run h hw hsc (not_exists.1 hrefused)
          refine ⟨created, s₁, hcreate, .inr ?_⟩
          by_cases hd : faults.deleted sc.id = true
          · exact .inl hd
          · refine .inr fun htimed => hharm ⟨?_, not_exists.1 hrefused, Bool.eq_false_iff.2 hd⟩
            rwa [hcreated.since.now] at htimed
      obtain ⟨created, s₁, hcreate, hwhy⟩ := hbad
      obtain ⟨exc, s', hadvance⟩ := advance_raise hwhy
      refine ⟨[(sc, created)], exc, s', ?_⟩
      rw [Faults.rounds, hcreate]
      simp only [hadvance]

/-! What is committed before the end is what others committed. -/

theorem uncommitted_create : Uncommitted (faults.create sc) := by
  unfold Faults.create
  split
  · exact uncommitted_createRunFor
  · exact keeps_throw _
  · exact (uncommitted_flush _).bind fun _ => keeps_throw _

/-- The committed row of a schedule, which nobody deletes. -/
theorem committed_advance (lib : Libraries) (sc : Schedule) {id : UUID} (hd : faults.deleted id = false) (s : Session) :
    (faults.advance lib sc s).2.committed.schedules.get? id = s.committed.schedules.get? id := by
  have hinterfere : Keeps (fun s => s.committed.schedules.get? id) (faults.interfere sc) := by
    intro s
    unfold Faults.interfere
    dsimp only
    split
    · rename_i hdeleted
      refine (Table.get?_erase _ _ _).trans (if_neg ?_)
      rintro rfl
      rw [hd] at hdeleted
      cases hdeleted
    · rfl
  have hrest : ∀ u : Unit, Uncommitted (do
      let nextRunAt ← computeNextRunAt lib sc.cronExpression sc.timezone
      let _ ← ScheduleRepository.update { sc with lastRunAt := some (← now), nextRunAt := some nextRunAt }
      return ()) := by
    intro u
    refine Keeps.bind ?_ fun nextRunAt => readOnly_now.uncommitted.bind fun at_ => ?_
    · refine readOnly_now.uncommitted.bind fun at_ => ?_
      split
      · exact keeps_pure _
      · exact keeps_throw _
    · exact ((uncommitted_flush _).bind fun _ => keeps_pure _).bind fun _ => keeps_pure _
  exact hinterfere.bind (fun u s => congrArg (fun db : Database => db.schedules.get? id) (hrest u s)) s

theorem committed_rounds {id : UUID} (hd : faults.deleted id = false) (due : List Schedule) (s : Session) :
    (faults.rounds lib due s).2.2.committed.schedules.get? id = s.committed.schedules.get? id := by
  induction due generalizing s with
  | nil => rfl
  | cons sc due ih =>
    have hcreate : (faults.create sc s).2.committed = s.committed := uncommitted_create s
    rcases hc : faults.create sc s with ⟨created, s₁⟩
    have hadvance := committed_advance lib sc hd s₁
    rcases ha : faults.advance lib sc s₁ with ⟨ended, s₂⟩
    rw [hc] at hcreate
    rw [ha, hcreate] at hadvance
    rw [Faults.rounds, hc]
    cases ended with
    | error exc =>
      simp only [ha]
      exact hadvance
    | ok u =>
      simp only [ha]
      exact (ih s₂).trans hadvance

/-- A schedule that is due has not been advanced. -/
theorem not_advanced_of_due {limit : ℕ} {v : World} (hsc : sc ∈ w.db.dueSchedules x.ties x.now limit)
    (hv : v.db.schedules.get? sc.id = w.db.schedules.get? sc.id) : ¬ v.Advanced x.now sc.id := by
  rintro ⟨row, next, hrow, hnext, hlt⟩
  obtain ⟨hmem, -, t, ht, hle⟩ := mem_dueSchedules hsc
  rw [hv, Table.get?_eq_some_iff.2 ⟨hmem, rfl⟩] at hrow
  cases hrow
  rw [hnext] at ht
  cases ht
  exact absurd hle (Nat.not_le_of_lt hlt)

end

/-- What it takes for the failures to stay with their schedules. -/
def Faults.Contained (lib : Libraries) (faults : Faults) (x : Surroundings) (due : List Schedule) : Prop :=
  (∀ sc ∈ due, faults.deleted sc.id = true) ∨
    x.commit.tookEffect = true ∧ ∀ sc ∈ due, Harmless lib faults x.now sc

theorem isolated_iff {lib : Libraries} {faults : Faults} {x : Surroundings} {w : World} {due : List Schedule}
    {batchSize : ℕ} (hahead : lib.Ahead) (hw : w.Sound) (hdue : w.db.dueSchedules x.ties x.now batchSize = due) :
    Isolated faults x.now due (faults.sweep lib batchSize x w).1 w (faults.sweep lib batchSize x w).2 ↔
      faults.Contained lib x due := by
  have hrows : ∀ q ∈ due, q ∈ w.db.schedules.rows := fun q hq => (mem_dueSchedules (hdue ▸ hq)).1
  -- what has not been committed has not been advanced
  have hstays : ∀ q ∈ due, faults.deleted q.id = false → ∀ v : World,
      v.db.schedules = (faults.rounds lib due (w.session x)).2.2.committed.schedules →
        ¬ v.Advanced x.now q.id := by
    intro q hq hd v hv
    refine not_advanced_of_due (hdue ▸ hq) ?_
    rw [hv]
    exact committed_rounds hd due (w.session x)
  unfold Faults.sweep
  rw [hdue]
  cases due with
  | nil => exact ⟨fun _ => .inl (by simp), fun _ => ⟨by simp, by simp⟩⟩
  | cons sc due =>
    simp only [List.isEmpty_cons, Bool.false_eq_true, if_false]
    by_cases hall : ∀ q ∈ sc :: due, Harmless lib faults x.now q
    · have hthere := (hall sc List.mem_cons_self).there
      obtain ⟨calls, s', hrounds, hsince, -, hdone⟩ := rounds_run _ hahead hw hrows hall (since_session hw)
      obtain ⟨r, hcommit⟩ := commit_run hsince.failed
      rw [hsince.commitCall] at hcommit
      rw [hrounds] at hstays
      simp only [hrounds, hcommit]
      cases hcall : x.commit.tookEffect with
      | true =>
        refine ⟨fun _ => .inr ⟨hcall, hall⟩, fun _ => ⟨fun q hq _ => ?_, fun q hq _ => ?_⟩⟩
        · exact (hdone q hq).1
        · exact (hdone q hq).2
      | false =>
        constructor
        · intro h
          exact absurd (h.advanced sc List.mem_cons_self hthere) (hstays sc List.mem_cons_self hthere _ rfl)
        · rintro (hdeleted | ⟨hcall', -⟩)
          · rw [hdeleted sc List.mem_cons_self] at hthere
            cases hthere
          · rw [hcall] at hcall'
            cases hcall'
    · simp only [not_forall, exists_prop] at hall
      obtain ⟨calls, exc, s', hrounds⟩ := rounds_raise _ hahead hw hrows hall (since_session hw)
      rw [hrounds] at hstays
      simp only [hrounds]
      constructor
      · intro h
        refine .inl fun q hq => ?_
        by_contra hd
        rw [Bool.not_eq_true] at hd
        exact absurd (h.advanced q hq hd) (hstays q hq hd _ rfl)
      · rintro (hdeleted | ⟨-, hharmless⟩)
        · refine ⟨fun q hq hd => ?_, fun q hq hd => ?_⟩
          · rw [hdeleted q hq] at hd
            cases hd
          · rw [hdeleted q hq] at hd
            cases hd
        · obtain ⟨q, hq, hnot⟩ := hall
          exact absurd (hharmless q hq) hnot

/-- A sweep isolates its failures exactly where none of them reaches the session they
share: no creation is refused by the database and no due schedule is deleted. -/
theorem sweep_isolates_iff (lib : Libraries) (faults : Faults) (batchSize : ℕ) (x : Surroundings) (w : World)
    (hahead : lib.Ahead) (hw : w.Sound) :
    Isolated faults x.now (w.db.dueSchedules x.ties x.now batchSize) (faults.sweep lib batchSize x w).1 w
        (faults.sweep lib batchSize x w).2 ↔
      faults.Contained lib x (w.db.dueSchedules x.ties x.now batchSize) := isolated_iff hahead hw rfl

/-- Two schedules that are due, for one collection. -/
def twoSchedules : World :=
  { oneSchedule with
    db :=
      { oneSchedule.db with
        schedules := oneSchedule.db.schedules.set ⟨5, 0, "0 * * * *", "UTC", true, some 1, none, 1, 0⟩ }
    nextId := 6 }

theorem sound_twoSchedules : twoSchedules.Sound where
  runs := by simp [twoSchedules, oneSchedule, Database.empty, Table.empty]
  tasks := by simp [twoSchedules, oneSchedule, Database.empty, Table.empty]
  log := by simp [twoSchedules, oneSchedule, Stream.empty]
  schedules := by
    intro sc hsc
    rcases Table.mem_rows_set hsc with rfl | hsc
    · exact ⟨rfl, rfl⟩
    · exact sound_oneSchedule.schedules sc hsc

theorem ahead_plainLibraries : plainLibraries.Ahead := by
  intro expression timezone now next h
  cases h
  exact Nat.lt_add_of_pos_right (by decide)

/-- Everything returns. -/
def allWell : Surroundings := ⟨60, fun _ => .ok, .ok, .table⟩

/-- The creation for the first of them raises. -/
def firstRaises : Faults :=
  ⟨fun id => if id = 4 then some (.raises callError) else none, fun _ => false⟩

theorem sweep_isolates_firstRaises :
    Isolated firstRaises allWell.now (twoSchedules.db.dueSchedules allWell.ties allWell.now 50)
        (firstRaises.sweep plainLibraries 50 allWell twoSchedules).1 twoSchedules
        (firstRaises.sweep plainLibraries 50 allWell twoSchedules).2 ↔
      firstRaises.Contained plainLibraries allWell (twoSchedules.db.dueSchedules allWell.ties allWell.now 50) :=
  sweep_isolates_iff plainLibraries firstRaises 50 allWell twoSchedules ahead_plainLibraries
    sound_twoSchedules

/-- The row of the first of them is deleted. -/
def firstDeleted : Faults := ⟨fun _ => none, fun id => id = 4⟩

/-- The other one gets no run and stays due. -/
theorem not_sweep_isolates_firstDeleted :
    ¬ Isolated firstDeleted allWell.now (twoSchedules.db.dueSchedules allWell.ties allWell.now 50)
      (firstDeleted.sweep plainLibraries 50 allWell twoSchedules).1 twoSchedules
      (firstDeleted.sweep plainLibraries 50 allWell twoSchedules).2 := by
  have hdue : twoSchedules.db.dueSchedules allWell.ties allWell.now 50 =
      [⟨4, 0, "* * * * *", "UTC", true, some 0, none, 1, 0⟩,
        ⟨5, 0, "0 * * * *", "UTC", true, some 1, none, 1, 0⟩] := rfl
  rw [isolated_iff ahead_plainLibraries sound_twoSchedules rfl, hdue]
  rintro (hdeleted | ⟨-, hharmless⟩)
  · have := hdeleted _ (List.mem_cons_of_mem _ List.mem_cons_self)
    cases this
  · have := (hharmless _ List.mem_cons_self).there
    cases this

end ApiTesting
