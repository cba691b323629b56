import ApiTesting.Lib.Amortized
import ApiTesting.Lib.Paging
import ApiTesting.Proofs.Onward
import ApiTesting.Proofs.SweepFaults

/-! The schedules over the life of the platform. One that is due does not starve: nobody
comes in ahead of it, and every sweep that returns without it has moved a full batch of
those ahead of it on. And every run it gets answers an occurrence of its own. -/

namespace ApiTesting

open Keyed Machine Paging ServiceM Fallible

/-- The row of a schedule after a sweep at this time. -/
def Schedule.movedTo (sc : Schedule) (now next : Timestamp) : Schedule :=
  { sc with lastRunAt := some now, nextRunAt := some next }

/-- A sweep has taken the schedule: its next run is computed, and the run it is due is there
but for a collection without requests or a call to Redis that has failed. -/
structure Fired (lib : Libraries) (sc : Schedule) (x : Surroundings) (w w' : World) : Prop where
  moved : ∃ next, lib.cronNext sc.cronExpression sc.timezone x.now = .ok next ∧
    w'.db.schedules.get? sc.id = some (sc.movedTo x.now next)
  run : w.db.requestsOf sc.collectionId = [] ∨ (∃ i, x.redis i ≠ .ok) ∨ ∃ run, w.Triggered w' sc run

/-- The platform, one transaction after the other. -/
def platformStep (lib : Libraries) (w : World) (t : PlatformTransaction) : Option World := some (t.perform lib w)

/-- The batch of a sweep that returns. -/
def PlatformTransaction.swept (lib : Libraries) (w : World) : PlatformTransaction → ℕ
  | .cronSweep batchSize x => if ((cronSweepOnce lib batchSize).transact x w).1.isOk then batchSize else 0
  | _ => 0

/-- A sweep that takes the schedule. -/
def PlatformTransaction.Fires (lib : Libraries) (sc : Schedule) (w : World) : PlatformTransaction → Prop
  | .cronSweep batchSize x => Fired lib sc x w ((cronSweepOnce lib batchSize).transact x w).2
  | _ => False

/-- Nobody but the sweeps writes to the schedule. -/
def LeavesAlone (lib : Libraries) (id : UUID) (w : World) : PlatformTransaction → Prop
  | .cronSweep .. => True
  | t => (t.perform lib w).db.schedules.get? id = w.db.schedules.get? id

/-- The other schedules that are due by a time. -/
def Database.aheadOf (db : Database) (id : UUID) (deadline : Timestamp) : List Schedule :=
  db.schedules.rows.filter fun q => q.id ≠ id ∧ q.isActive ∧ q.nextRunAt.any fun t => t ≤ deadline

/-- The schedule is as it was before any sweep has taken it. -/
structure Untaken (sc : Schedule) (w : World) : Prop where
  sound : w.Sound
  linked : w.db.Linked
  row : sc ∈ w.db.schedules.rows

section
variable {w : World} {x : Surroundings} {s s' : Session} {lib : Libraries} {sc : Schedule}

/-! A creation where Redis answers. -/

theorem enqueueAll_returns (tasks : List TestTask) (h : ∀ i, s.redis i = .ok) :
    ∃ s', (tasks.forM fun t => enqueue t.id : ServiceM PUnit) s = (.ok (), s') := by
  induction tasks generalizing s with
  | nil => exact ⟨s, rfl⟩
  | cons t tasks ih =>
    obtain ⟨s₁, hrun, hsent, -⟩ := callRedis_run s fun st => st.enqueue t.id
    rw [h] at hrun
    obtain ⟨s', hrest⟩ := ih (s := s₁) fun i => by rw [hsent]; exact h i
    exact ⟨s', (bind_of_ok _ hrun).trans hrest⟩

theorem sendTasks_returns (tasks : List TestTask) (h : ∀ i, s.redis i = .ok) :
    ∃ s', TestRunService.sendTasks tasks s = (.ok (), s') := by
  obtain ⟨s₁, hgroup, hsent, -⟩ := callRedis_run s id
  rw [h] at hgroup
  obtain ⟨s', hrest⟩ := enqueueAll_returns (s := s₁) tasks fun i => by rw [hsent]; exact h i
  exact ⟨s', (bind_of_ok _ hgroup).trans hrest⟩

/-- The parents of a schedule are there all along. -/
theorem Since.parents (h : Since w x s) (hw : w.Sound) (hsc : sc ∈ w.db.schedules.rows) :
    (∃ c, s.db.collections.get? sc.collectionId = some c) ∧ (s.db.users.get? sc.createdBy).isSome = true := by
  rw [h.collections, h.users, ← Option.isSome_iff_exists]
  exact hw.schedules sc hsc

/-- Where the creation for a schedule raises, it had no requests, or Redis did not answer. -/
theorem create_raised {exc : Exn} (h : Since w x s) (hw : w.Sound) (hsc : sc ∈ w.db.schedules.rows)
    (hcreate : Faults.none.create sc s = (.error exc, s')) :
    w.db.requestsOf sc.collectionId = [] ∨ ∃ i, x.redis i ≠ .ok := by
  by_contra hnone
  rw [not_or, not_exists] at hnone
  obtain ⟨hreq, hredis⟩ := hnone
  simp only [not_not] at hredis
  obtain ⟨⟨c, hcol⟩, hu⟩ := h.parents hw hsc
  rw [← h.requestsOf] at hreq
  obtain ⟨config, s₁, hplan, hplanned⟩ := planRun_run .scheduled none h.failed h.sound.runs
    (fun t ht => (h.sound.tasks t ht).1) hreq hcol hu
  obtain ⟨s₂, hsend⟩ := sendTasks_returns (s := s₁) (plannedTasks s sc.collectionId none) fun i => by
    rw [hplanned.rest]
    exact h.redis ▸ hredis i
  have hrun : Faults.none.create sc s = (.ok _, s₂) := (bind_of_ok _ hplan).trans (bind_return hsend _)
  rw [hrun] at hcreate
  cases hcreate

/-- Creating a run is nothing to the schedules. -/
theorem schedules_create {created : Except Exn TestRun} (h : Since w x s) (hw : w.Sound)
    (hsc : sc ∈ w.db.schedules.rows) (hcreate : Faults.none.create sc s = (created, s')) :
    s'.db.schedules = s.db.schedules := by
  by_cases hreq : s.db.requestsOf sc.collectionId = []
  · have hempty : Faults.none.create sc s = _ := createRunFor_empty h.failed hreq
    rw [hempty] at hcreate
    rw [← (Prod.mk.inj hcreate).2]
  · obtain ⟨⟨c, hcol⟩, hu⟩ := h.parents hw hsc
    obtain ⟨r, s₁, config, sent, hrun, hc, -⟩ :=
      createRunFor_run .scheduled none h.failed h.sound hreq hcol hu
    have hcreated : Faults.none.create sc s = (r, s₁) := hrun
    rw [hcreated] at hcreate
    rw [← (Prod.mk.inj hcreate).2, hc.tables]

/-- One round. -/
theorem triggerSchedule_fired {triggered : Bool} (hahead : lib.Ahead) (h : Since w x s) (hw : w.Sound)
    (hsc : sc ∈ w.db.schedules.rows) (hrun : triggerSchedule lib sc s = (.ok triggered, s')) :
    Since w x s' ∧ Carried w x.now s s' ∧ Fired lib sc x w s'.view ∧
      ∀ id, id ≠ sc.id → s'.db.schedules.get? id = s.db.schedules.get? id := by
  obtain ⟨created, s₁, hcreate, hcreated⟩ : ∃ created s₁, Faults.none.create sc s = (created, s₁) ∧
      Created w x sc created s s₁ := create_run h hw hsc fun _ => nofun
  have hsame := schedules_create h hw hsc hcreate
  rcases hcron : lib.cronNext sc.cronExpression sc.timezone x.now with exc | next
  · obtain ⟨s₂, hraise⟩ := triggerSchedule_raise h hw hsc hcron
    rw [hraise] at hrun
    cases hrun
  · obtain ⟨s₂, hadvance, hsince, -, hcarried⟩ := advance_run hcreated.since hw hsc hcron
      (hahead _ _ _ _ hcron) (rfl : Faults.none.deleted sc.id = false)
    rw [triggerSchedule_run sc hcreate hadvance] at hrun
    obtain ⟨-, rfl⟩ := Prod.mk.inj hrun
    have hrows : s₂.db.schedules = s.db.schedules.set (sc.movedTo x.now next) := by
      have hcompute := computeNextRunAt_run (hcreated.since.now ▸ hcron)
      rw [Faults.advance, interfere_none, pure_bind, bind_of_ok _ hcompute, bind_of_ok _ now_run] at hadvance
      obtain ⟨written, s₃, hupdate, hreturn⟩ := ok_of_bind hadvance
      cases hreturn
      rw [(update_ok hupdate).2, hsame, hcreated.since.now]
      rfl
    refine ⟨hsince, hcreated.carried.trans hcarried, ⟨⟨next, hcron, ?_⟩, ?_⟩, fun id hid => ?_⟩
    · change s₂.db.schedules.get? sc.id = _
      rw [hrows]
      exact (Table.get?_set _ (sc.movedTo x.now next) _).trans (if_pos rfl)
    · cases created with
      | error exc => exact (create_raised h hw hsc hcreate).imp_right .inl
      | ok run => exact .inr (.inr ⟨run, hcarried.triggered _ _ (hcreated.triggered run rfl)⟩)
    · rw [hrows]
      exact (Table.get?_set _ (sc.movedTo x.now next) _).trans (if_neg hid)

theorem Fired.carried (h : Fired lib sc x w s.view) (hc : Carried w x.now s s')
    (hrow : s'.db.schedules.get? sc.id = s.db.schedules.get? sc.id) : Fired lib sc x w s'.view where
  moved := by
    obtain ⟨next, hcron, hget⟩ := h.moved
    exact ⟨next, hcron, hrow.trans hget⟩
  run := h.run.imp_right fun h => h.imp_right fun ⟨run, ht⟩ => ⟨run, hc.triggered _ _ ht⟩

theorem triggerAll_fired (due : List Schedule) (hahead : lib.Ahead) (hw : w.Sound)
    (hdue : ∀ q ∈ due, q ∈ w.db.schedules.rows) (hnodup : (due.map Schedule.id).Nodup) (h : Since w x s) {k n : ℕ}
    (hrun : triggerAll lib due k s = (.ok n, s')) :
    Carried w x.now s s' ∧ (∀ q ∈ due, Fired lib q x w s'.view) ∧
      ∀ id ∉ due.map Schedule.id, s'.db.schedules.get? id = s.db.schedules.get? id := by
  induction due generalizing s k with
  | nil =>
    cases hrun
    exact ⟨⟨fun _ => id, fun _ _ => id⟩, by simp, fun _ _ => rfl⟩
  | cons sc due ih =>
    rw [List.forall_mem_cons] at hdue
    rw [List.map_cons, List.nodup_cons] at hnodup
    obtain ⟨triggered, s₁, hround, hrest⟩ := ok_of_bind hrun
    obtain ⟨hsince, hcarried, hfired, hothers⟩ := triggerSchedule_fired hahead h hw hdue.1 hround
    obtain ⟨hcarried', hall, hsame⟩ := ih hdue.2 hnodup.2 hsince hrest
    refine ⟨hcarried.trans hcarried', fun q hq => ?_, fun id hid => ?_⟩
    · rcases List.mem_cons.1 hq with rfl | hq
      · exact hfired.carried hcarried' (hsame q.id hnodup.1)
      · exact hall q hq
    · rw [List.map_cons, List.mem_cons, not_or] at hid
      exact (hsame id hid.2).trans (hothers id hid.1)

/-- A sweep that is committed has taken what was due, and nothing else. -/
structure Swept (lib : Libraries) (due : List Schedule) (x : Surroundings) (w w' : World) : Prop where
  fired : ∀ q ∈ due, Fired lib q x w w'
  rest : ∀ id ∉ due.map Schedule.id, w'.db.schedules.get? id = w.db.schedules.get? id

theorem commit_cases {r : Except Exn Unit} (h : commit s = (r, s')) :
    s'.committed = s.committed ∧ r.isOk = false ∨ s'.close = s.view := by
  unfold commit at h
  split at h
  · cases h
    exact .inl ⟨rfl, rfl⟩
  · obtain ⟨rfl, rfl⟩ := Prod.mk.inj h
    cases hcall : s.commitCall with
    | ok => exact .inr rfl
    | raisedBefore => exact .inl ⟨rfl, rfl⟩
    | raisedAfter => exact .inr rfl

/-- A sweep leaves the database alone, and then it has raised or had nothing to do, or it takes
what is due. -/
theorem cronSweep_cases (hahead : lib.Ahead) (hw : w.Sound) (batchSize : ℕ) :
    (((cronSweepOnce lib batchSize).transact x w).2.db = w.db ∧
        (((cronSweepOnce lib batchSize).transact x w).1.isOk = true → w.db.dueSchedules x.ties x.now batchSize = [])) ∨
      Swept lib (w.db.dueSchedules x.ties x.now batchSize) x w ((cronSweepOnce lib batchSize).transact x w).2 := by
  have hnodup := nodup_dueSchedules w.db x.ties x.now batchSize
  have hrows : ∀ q ∈ w.db.dueSchedules x.ties x.now batchSize, q ∈ w.db.schedules.rows := fun q hq =>
    (mem_dueSchedules hq).1
  unfold transact
  rcases hdue : w.db.dueSchedules x.ties x.now batchSize with _ | ⟨sc, due⟩
  · have hempty : cronSweepOnce lib batchSize (w.session x) = _ := cronSweepOnce_eq rfl hdue
    rw [hempty]
    exact .inl ⟨rfl, fun _ => rfl⟩
  · rw [hdue] at hnodup hrows
    have heq : cronSweepOnce lib batchSize (w.session x) = _ := cronSweepOnce_eq rfl hdue
    have hkeep := uncommitted_triggerAll lib (sc :: due) 0 (w.session x)
    rcases hall : triggerAll lib (sc :: due) 0 (w.session x) with ⟨r, s'⟩
    rw [hall] at hkeep
    cases r with
    | error exc =>
      have hrun : cronSweepOnce lib batchSize (w.session x) = (.error exc, s') := heq.trans (bind_of_error _ hall)
      rw [hrun]
      exact .inl ⟨hkeep, fun hok => by cases hok⟩
    | ok n =>
      obtain ⟨-, hfired, hrest⟩ := triggerAll_fired _ hahead hw hrows hnodup (since_session hw) hall
      rcases hcommit : commit s' with ⟨r, s''⟩
      have hrun : cronSweepOnce lib batchSize (w.session x) = (r.map fun _ => n, s'') :=
        heq.trans ((bind_of_ok _ hall).trans (bind_return hcommit n))
      rw [hrun]
      rcases commit_cases hcommit with ⟨hsame, hr⟩ | hview
      · refine .inl ⟨hsame.trans hkeep, fun hok => ?_⟩
        cases r with
        | ok u => cases hr
        | error exc => cases hok
      · dsimp only
        rw [hview]
        exact .inr ⟨hfired, hrest⟩

/-! Who is ahead of a schedule. -/

variable {db : Database} {ties : Ties} {now d : Timestamp} {batchSize : ℕ}

theorem mem_aheadOf {id : UUID} {q : Schedule} :
    q ∈ db.aheadOf id d ↔
      q ∈ db.schedules.rows ∧ q.id ≠ id ∧ q.isActive = true ∧ ∃ t, q.nextRunAt = some t ∧ t ≤ d := by
  simp [Database.aheadOf, Option.any_eq_true]

/-- A sweep that leaves it out takes a full batch of those ahead of it. -/
theorem ahead_of_due (hsc : sc ∈ db.schedules.rows) (hactive : sc.isActive = true) (hnext : sc.nextRunAt = some d)
    (hd : d ≤ now) (hout : sc ∉ db.dueSchedules ties now batchSize) :
    (db.dueSchedules ties now batchSize).length = batchSize ∧
      ∀ q ∈ db.dueSchedules ties now batchSize, q ∈ db.aheadOf sc.id d := by
  let due := db.schedules.rows.filter fun q => q.isActive && q.nextRunAt.any fun t => t ≤ now
  let earlier : Schedule → Schedule → Prop := fun a b => a.nextRunAt.getD 0 ≤ b.nextRunAt.getD 0
  have htrans : IsTrans Schedule earlier := ⟨fun _ _ _ => Nat.le_trans⟩
  have htotal : Std.Total earlier := ⟨fun _ _ => Nat.le_total _ _⟩
  have horder : Orders earlier due (orderBy (fun q : Schedule => q.nextRunAt.getD 0) (ties.arrange due)) :=
    have hsorted := orders_insertionSort earlier (ties.arrange due)
    ⟨hsorted.perm.trans (ties.perm due), hsorted.sorted⟩
  have hmem : sc ∈ due := by simp [due, hsc, hactive, hnext, hd]
  obtain ⟨hlength, hearlier⟩ := horder.left_out hmem hout
  refine ⟨hlength, fun q hq => ?_⟩
  have hqdue : q ∈ due := horder.perm.mem_iff.1 (List.mem_of_mem_take hq)
  simp only [due, List.mem_filter, Bool.and_eq_true, Option.any_eq_true, decide_eq_true_eq] at hqdue
  obtain ⟨hrow, hqactive, t, ht, -⟩ := hqdue
  refine mem_aheadOf.2 ⟨hrow, fun hid => hout ?_, hqactive, t, ht, ?_⟩
  · have hsame := (Table.get?_eq_some_iff.2 ⟨hrow, hid⟩).symm.trans (Table.get?_eq_some_iff.2 ⟨hsc, rfl⟩)
    cases hsame
    exact hq
  · have hle : q.nextRunAt.getD 0 ≤ sc.nextRunAt.getD 0 := hearlier q hq
    rwa [ht, hnext] at hle

/-- Nobody comes in ahead of it: what is written now is due later. -/
theorem aheadOf_subset (hahead : lib.Ahead) (hlinked : w.db.Linked) {t : PlatformTransaction} (hlate : d ≤ t.at)
    (id : UUID) : (t.perform lib w).db.aheadOf id d ⊆ w.db.aheadOf id d := by
  intro q hq
  obtain ⟨hrow, hid, hactive, next, hnext, hle⟩ := mem_aheadOf.1 hq
  have honward : Onward lib (w.session ⟨t.at, fun _ => .ok, .ok, .table⟩) _ := onward_perform hlinked t rfl
  rcases honward.schedules q hrow with hold | hnone | ⟨next', hcron, hnext'⟩
  · exact mem_aheadOf.2 ⟨hold, hid, hactive, next, hnext, hle⟩
  · rw [hnone] at hnext
    cases hnext
  · rw [hnext'] at hnext
    cases hnext
    exact absurd (hahead _ _ _ _ hcron) (Nat.not_lt_of_le (hle.trans hlate))

theorem nodup_rows_schedules (db : Database) : db.schedules.rows.Nodup := db.schedules.nodup.of_map

/-- A sweep that takes others than it makes them later. -/
theorem aheadOf_swept (hahead : lib.Ahead) (hw : w.Sound) (hlinked : w.db.Linked)
    (hsc : sc ∈ w.db.schedules.rows) (hactive : sc.isActive = true) (hnext : sc.nextRunAt = some d)
    (hlate : d ≤ x.now)
    (hnot : ¬ Fired lib sc x w ((cronSweepOnce lib batchSize).transact x w).2)
    (hok : ((cronSweepOnce lib batchSize).transact x w).1.isOk = true) :
    (((cronSweepOnce lib batchSize).transact x w).2.db.aheadOf sc.id d).length + batchSize ≤
      (w.db.aheadOf sc.id d).length := by
  rcases cronSweep_cases hahead hw (x := x) batchSize with ⟨hsame, hnone⟩ | hswept
  · obtain ⟨hlength, -⟩ := ahead_of_due hsc hactive hnext hlate (hnone hok ▸ List.not_mem_nil)
    rw [hnone hok, List.length_nil] at hlength
    rw [hsame, ← hlength, Nat.add_zero]
  · obtain ⟨hlength, hdue⟩ := ahead_of_due hsc hactive hnext hlate fun hmem => hnot (hswept.fired sc hmem)
    -- those it takes have been ahead, and are not ahead any more
    have hgone : ∀ q ∈ ((cronSweepOnce lib batchSize).transact x w).2.db.aheadOf sc.id d,
        q ∉ w.db.dueSchedules x.ties x.now batchSize := by
      intro q hq hmem
      obtain ⟨next, hcron, hget⟩ := (hswept.fired q hmem).moved
      obtain ⟨hrow, -, -, t, ht, hle⟩ := mem_aheadOf.1 hq
      rw [Table.get?_eq_some_iff.2 ⟨hrow, rfl⟩] at hget
      rw [Option.some.inj hget] at ht
      cases ht
      exact absurd (hahead _ _ _ _ hcron) (Nat.not_lt_of_le (hle.trans hlate))
    have hnodup : (((cronSweepOnce lib batchSize).transact x w).2.db.aheadOf sc.id d ++
        w.db.dueSchedules x.ties x.now batchSize).Nodup := by
      refine List.nodup_append.2 ⟨(nodup_rows_schedules _).filter _, (nodup_dueSchedules _ _ _ _).of_map, ?_⟩
      rintro q hq _ hmem rfl
      exact hgone q hq hmem
    have hsubset : ((cronSweepOnce lib batchSize).transact x w).2.db.aheadOf sc.id d ⊆ w.db.aheadOf sc.id d :=
      aheadOf_subset (t := .cronSweep batchSize x) hahead hlinked hlate sc.id
    have hle := (List.subperm_of_subset hnodup (List.append_subset.2 ⟨hsubset, hdue⟩)).length_le
    rwa [List.length_append, hlength] at hle

theorem ahead_perform (hahead : lib.Ahead) (hw : w.Sound) (hlinked : w.db.Linked) (hsc : sc ∈ w.db.schedules.rows)
    (hactive : sc.isActive = true) (hnext : sc.nextRunAt = some d) {t : PlatformTransaction} (hlate : d ≤ t.at)
    (hnot : ¬ t.Fires lib sc w) :
    ((t.perform lib w).db.aheadOf sc.id d).length + t.swept lib w ≤ (w.db.aheadOf sc.id d).length := by
  have hle : ((t.perform lib w).db.aheadOf sc.id d).length ≤ (w.db.aheadOf sc.id d).length := by
    have hnodup := (nodup_rows_schedules (t.perform lib w).db).filter fun q =>
      q.id ≠ sc.id ∧ q.isActive ∧ q.nextRunAt.any fun t => t ≤ d
    exact (List.subperm_of_subset hnodup (aheadOf_subset hahead hlinked hlate sc.id)).length_le
  cases t with
  | cronSweep batchSize x =>
    rw [PlatformTransaction.swept]
    split
    · rename_i hok
      exact aheadOf_swept hahead hw hlinked hsc hactive hnext hlate hnot hok
    · exact hle
  | request r => exact hle
  | writeBatch outcomes now call => exact hle

/-- Until a sweep takes it, the schedule stays as it is. -/
theorem row_perform (hahead : lib.Ahead) (hw : w.Sound) (hsc : sc ∈ w.db.schedules.rows) {t : PlatformTransaction}
    (halone : LeavesAlone lib sc.id w t) (hnot : ¬ t.Fires lib sc w) : sc ∈ (t.perform lib w).db.schedules.rows := by
  have hget : w.db.schedules.get? sc.id = some sc := Table.get?_eq_some_iff.2 ⟨hsc, rfl⟩
  suffices hsame : (t.perform lib w).db.schedules.get? sc.id = w.db.schedules.get? sc.id from
    (Table.get?_eq_some_iff.1 (hsame.trans hget)).1
  cases t with
  | request r => exact halone
  | writeBatch outcomes now call => exact halone
  | cronSweep batchSize x =>
    rcases cronSweep_cases hahead hw (x := x) batchSize with ⟨hsame, -⟩ | hswept
    · exact congrArg (fun db : Database => db.schedules.get? sc.id) hsame
    · refine hswept.rest sc.id fun hmem => ?_
      obtain ⟨q, hq, hid⟩ := List.mem_map.1 hmem
      have hrow := Table.get?_eq_some_iff.2 ⟨(mem_dueSchedules hq).1, hid⟩
      cases hrow.symm.trans hget
      exact hnot (hswept.fired sc hq)

end

theorem run_platform (lib : Libraries) (w : World) (ts : List PlatformTransaction) :
    Run (platformStep lib) w ts (ts.foldl (PlatformTransaction.perform lib) w) := by
  induction ts using List.reverseRecOn with
  | nil => exact .nil
  | append_singleton ts t ih =>
    rw [List.foldl_append]
    exact .snoc ih rfl

/-- A schedule that is due does not starve. Whatever users, workers and sweeps do meanwhile, as
soon as the batches of the sweeps that have returned outnumber the other schedules that were due
by its time, one of the sweeps has taken it. -/
theorem no_schedule_starves (lib : Libraries) (users : Table User.id) (history ts : List PlatformTransaction)
    (sc : Schedule) (d : Timestamp) (hahead : lib.Ahead)
    (hsc : sc ∈ (after lib users history).db.schedules.rows) (hactive : sc.isActive = true)
    (hnext : sc.nextRunAt = some d) (hlate : ∀ t ∈ ts, d ≤ t.at)
    (halone : Each (platformStep lib) (LeavesAlone lib sc.id) (after lib users history) ts)
    (henough : ((after lib users history).db.aheadOf sc.id d).length <
      total (platformStep lib) (fun w t => t.swept lib w) (after lib users history) ts) :
    ∃ pre t post, ts = pre ++ t :: post ∧ t.Fires lib sc (after lib users (history ++ pre)) := by
  by_contra hnone
  have hrun := run_platform lib (after lib users history) ts
  have hstep : Each (platformStep lib) (fun w t => (d ≤ t.at ∧ LeavesAlone lib sc.id w t) ∧ ¬ t.Fires lib sc w)
      (after lib users history) ts := by
    -- otherwise this is the sweep
    rintro pre t w ⟨post, hts⟩ hw
    refine ⟨⟨hlate t (hts ▸ by simp), halone pre t w ⟨post, hts⟩ hw⟩, fun hfires => ?_⟩
    rw [hw.unique (run_platform lib _ pre), ← after_append] at hfires
    exact hnone ⟨pre, t, post, by rw [← hts, List.append_assoc, List.singleton_append], hfires⟩
  have huntaken : ∀ w t w', Untaken sc w → (d ≤ t.at ∧ LeavesAlone lib sc.id w t) ∧ ¬ t.Fires lib sc w →
      platformStep lib w t = some w' → Untaken sc w' := by
    rintro w t _ h ⟨⟨-, halone⟩, hnot⟩ ⟨⟩
    have hrow := row_perform hahead h.sound h.row halone hnot
    exact ⟨sound_perform h.linked h.sound t, linked_perform lib h.linked t, hrow⟩
  have hpays : ∀ w t w', Untaken sc w → (d ≤ t.at ∧ LeavesAlone lib sc.id w t) ∧ ¬ t.Fires lib sc w →
      platformStep lib w t = some w' →
      (w'.db.aheadOf sc.id d).length + t.swept lib w ≤ (w.db.aheadOf sc.id d).length + 0 := by
    rintro w t _ h ⟨⟨hlate, -⟩, hnot⟩ ⟨⟩
    exact ahead_perform hahead h.sound h.linked h.row hactive hnext hlate hnot
  have hstart : Untaken sc (after lib users history) :=
    ⟨sound_after lib users history, linked_after lib users history, hsc⟩
  have hpaid := hrun.amortized hstep hstart huntaken hpays
  rw [total_zero, Nat.add_zero] at hpaid
  exact absurd henough (Nat.not_lt_of_le ((Nat.le_add_left _ _).trans hpaid))

/-- The clock at this many hours. -/
def atHour (n : ℕ) : Surroundings := ⟨n * 3600000000, fun _ => .ok, .ok, .table⟩

/-- A collection with one request and two schedules, the second one an hour later. -/
def hourlyHistory : List PlatformTransaction :=
  acmeHistory ++
    [.request ⟨acmeOwner, .on (k := .project) (.createCollection "Invoices" none) 1, atHour 0⟩,
      .request ⟨acmeOwner, .on (k := .collection)
        (.createRequest ⟨"Ping", .get, "http://api.test/ping", .empty, .empty, none, none, 1000, []⟩) 2, atHour 0⟩,
      .request ⟨acmeOwner, .on (k := .collection) (.createSchedule "0 * * * *" "UTC" true) 2, atHour 0⟩,
      .request ⟨acmeOwner, .on (k := .collection) (.createSchedule "0 * * * *" "UTC" true) 2, atHour 1⟩]

/-- The second one. -/
def laterSchedule : Schedule :=
  ((after plainLibraries acmeUsers hourlyHistory).db.schedules.get? 5).get (by decide +kernel)

/-- Two sweeps for one schedule each. -/
def hourlySweeps : List PlatformTransaction := [.cronSweep 1 (atHour 2), .cronSweep 1 (atHour 2)]

theorem no_schedule_starves_hourly :
    ∃ pre t post, hourlySweeps = pre ++ t :: post ∧
      t.Fires plainLibraries laterSchedule (after plainLibraries acmeUsers (hourlyHistory ++ pre)) := by
  have hsc : laterSchedule ∈ (after plainLibraries acmeUsers hourlyHistory).db.schedules.rows :=
    (Table.get?_eq_some_iff.1 (Option.some_get _).symm).1
  refine no_schedule_starves plainLibraries acmeUsers hourlyHistory hourlySweeps laterSchedule 7200000000
    ahead_plainLibraries hsc (by decide +kernel) (by decide +kernel) (by decide +kernel) ?_ (by decide +kernel)
  rintro pre t w ⟨post, hts⟩ -
  have ht : t ∈ hourlySweeps := hts ▸ by simp
  simp only [hourlySweeps, List.mem_cons, List.not_mem_nil, or_false, or_self] at ht
  rw [ht]
  trivial

/-! Which occurrence a run is for. -/

/-- The next run of the schedule is the first occurrence of its expression after a transaction
of the history, and no sweep that has taken the schedule came after that transaction. -/
structure NextOccurrence (lib : Libraries) (users : Table User.id) (history : List PlatformTransaction) (sc : Schedule)
    (asked next : Timestamp) : Prop where
  computed : lib.cronNext sc.cronExpression sc.timezone asked = .ok next
  row : sc.nextRunAt = some next
  inHistory : ∃ t ∈ history, t.at = asked
  taken : ∀ pre t post sc', history = pre ++ t :: post → sc'.id = sc.id →
    t.Fires lib sc' (after lib users pre) → t.at ≤ asked

section
variable {lib : Libraries} {users : Table User.id} {history : List PlatformTransaction} {t : PlatformTransaction}
  {sc : Schedule}

theorem split_snoc {α : Type} {as pre post : List α} {a b : α} (h : as ++ [a] = pre ++ b :: post) :
    as = pre ∧ a = b ∨ ∃ rest, as = pre ++ b :: rest := by
  rcases List.eq_nil_or_concat post with rfl | ⟨rest, c, rfl⟩
  · obtain ⟨rfl, hb⟩ := List.append_inj' h rfl
    exact .inl ⟨rfl, (List.cons.inj hb).1⟩
  · rw [List.concat_eq_append, ← List.cons_append, ← List.append_assoc] at h
    exact .inr ⟨rest, (List.append_inj' h rfl).1⟩

/-- A next run that was computed last of all. -/
theorem nextOccurrence_last {next : Timestamp} (hclock : ∀ u ∈ history, u.at ≤ t.at)
    (hcron : lib.cronNext sc.cronExpression sc.timezone t.at = .ok next) (hnext : sc.nextRunAt = some next) :
    NextOccurrence lib users (history ++ [t]) sc t.at next where
  computed := hcron
  row := hnext
  inHistory := ⟨t, by simp, rfl⟩
  taken := by
    rintro pre u post sc' hsplit - -
    have hu : u ∈ history ++ [t] := by simp [hsplit]
    rcases List.mem_append.1 hu with hu | hu
    · exact hclock u hu
    · rw [List.mem_singleton.1 hu]

/-- The row of a schedule that a sweep has just taken. -/
theorem computed_of_fires {w : World} {sc' : Schedule} (hid : sc'.id = sc.id) (hfires : t.Fires lib sc' w)
    (hsc : sc ∈ (t.perform lib w).db.schedules.rows) :
    ∃ next, lib.cronNext sc.cronExpression sc.timezone t.at = .ok next ∧ sc.nextRunAt = some next := by
  cases t with
  | request r => exact hfires.elim
  | writeBatch outcomes now call => exact hfires.elim
  | cronSweep batchSize x =>
    obtain ⟨next, hcron, hget⟩ := hfires.moved
    have hrow := (Table.get?_eq_some_iff.2 ⟨hsc, hid.symm⟩).symm.trans hget
    rw [Option.some.inj hrow]
    exact ⟨next, hcron, rfl⟩

/-- What every schedule meets after every history. -/
theorem nextOccurrence_after (lib : Libraries) (users : Table User.id) (history : List PlatformTransaction)
    (hclock : history.Pairwise fun t u => t.at ≤ u.at) :
    ∀ sc ∈ (after lib users history).db.schedules.rows,
      sc.nextRunAt = none ∨ ∃ asked next, NextOccurrence lib users history sc asked next := by
  induction history using List.reverseRecOn with
  | nil =>
    intro sc hsc
    cases hsc
  | append_singleton history t ih =>
    intro sc hsc
    rw [List.pairwise_append] at hclock
    have hbefore : ∀ u ∈ history, u.at ≤ t.at := fun u hu => hclock.2.2 u hu t List.mem_cons_self
    rw [after_append] at hsc
    by_cases hfires : ∃ sc', sc'.id = sc.id ∧ t.Fires lib sc' (after lib users history)
    · obtain ⟨sc', hid, hfires⟩ := hfires
      obtain ⟨next, hcron, hnext⟩ := computed_of_fires hid hfires hsc
      exact .inr ⟨t.at, next, nextOccurrence_last hbefore hcron hnext⟩
    · have honward : Onward lib ((after lib users history).session ⟨t.at, fun _ => .ok, .ok, .table⟩) _ :=
        onward_perform (linked_after lib users history) t rfl
      rcases honward.schedules sc hsc with hold | hnone | ⟨next, hcron, hnext⟩
      · refine (ih hclock.1 sc hold).imp_right ?_
        rintro ⟨asked, next, h⟩
        obtain ⟨u, hu, hasked⟩ := h.inHistory
        refine ⟨asked, next, h.computed, h.row, ⟨u, List.mem_append_left _ hu, hasked⟩, ?_⟩
        intro pre v post sc' hsplit hid hv
        -- the last transaction has not taken it, and the others came before
        rcases split_snoc hsplit with ⟨rfl, rfl⟩ | ⟨rest, hrest⟩
        · exact absurd ⟨sc', hid, hv⟩ hfires
        · exact h.taken pre v rest sc' hrest hid hv
      · exact .inl hnone
      · exact .inr ⟨t.at, next, nextOccurrence_last hbefore hcron hnext⟩

end

/-- Every run of a schedule answers an occurrence of its own. Whatever the platform has seen, as
long as the clock does not go back a sweep takes a schedule only when an occurrence of the
expression the schedule has then has come, and that occurrence is later than every sweep that has
taken it before: no run is early, and no occurrence has two. -/
theorem firings_answer_occurrences (lib : Libraries) (users : Table User.id) (history : List PlatformTransaction)
    (batchSize : ℕ) (x : Surroundings) (sc : Schedule) (hahead : lib.Ahead)
    (hclock : history.Pairwise fun t u => t.at ≤ u.at)
    (hsc : sc ∈ (after lib users history).db.dueSchedules x.ties x.now batchSize) :
    ∃ asked next, NextOccurrence lib users history sc asked next ∧ asked < next ∧ next ≤ x.now := by
  obtain ⟨hrow, -, next, hnext, hle⟩ := mem_dueSchedules hsc
  rcases nextOccurrence_after lib users history hclock sc hrow with hnone | ⟨asked, next', h⟩
  · rw [hnone] at hnext
    cases hnext
  · cases h.row.symm.trans hnext
    exact ⟨asked, next, h, hahead _ _ _ _ h.computed, hle⟩

/-- The first of the two comes round again. -/
def dueAgain : Schedule :=
  ((after plainLibraries acmeUsers (hourlyHistory ++ hourlySweeps)).db.dueSchedules .table (atHour 3).now 1).head
    (by decide +kernel)

theorem firings_answer_occurrences_hourly :
    ∃ asked next, NextOccurrence plainLibraries acmeUsers (hourlyHistory ++ hourlySweeps) dueAgain asked next ∧
      asked < next ∧ next ≤ (atHour 3).now :=
  firings_answer_occurrences plainLibraries acmeUsers (hourlyHistory ++ hourlySweeps) 1 (atHour 3) dueAgain
    ahead_plainLibraries (by decide +kernel) (List.head_mem _)

end ApiTesting
