import ApiTesting.Lib.Pool
import ApiTesting.Spec.Fleet

/-! A worker's row and key are its own process's: no other process writes to them, and the
process does so in the order its methods call the repository and the registry. -/

namespace ApiTesting

open Keyed Lease

def WorkerStores.statusOf (st : WorkerStores) (workerId : UUID) : Option WorkerStatus :=
  (st.workers.get? workerId).map Worker.status

def RowWrite.workerId : RowWrite → UUID
  | .insert w => w.id
  | .lastSeenAt id _ => id
  | .setStatus id _ => id
  | .heartbeat h => h.workerId

section
variable {st st' : WorkerStores} {k : UUID} {writes : List RowWrite}

theorem apply_redis (wr : RowWrite) : (RowWrite.apply st wr).redis = st.redis := by cases wr <;> rfl

theorem apply_nextId (wr : RowWrite) : (RowWrite.apply st wr).nextId = st.nextId := by cases wr <;> rfl

theorem statusOf_insert (row : Worker) :
    (RowWrite.apply st (.insert row)).statusOf k = if k = row.id then some row.status else st.statusOf k := by
  rw [WorkerStores.statusOf, RowWrite.apply, Table.get?_set]
  split
  · rfl
  · rfl

theorem statusOf_lastSeenAt (id : UUID) (at_ : Timestamp) :
    (RowWrite.apply st (.lastSeenAt id at_)).statusOf k = st.statusOf k := by
  rw [WorkerStores.statusOf, RowWrite.apply, Table.get?_modify, WorkerStores.statusOf]
  by_cases h : k = id
  · rw [if_pos h, h, Option.map_map]
    rfl
  · rw [if_neg h]

theorem statusOf_setStatus (id : UUID) (status : WorkerStatus) :
    (RowWrite.apply st (.setStatus id status)).statusOf k =
      if k = id then (st.statusOf k).map fun _ => status else st.statusOf k := by
  rw [WorkerStores.statusOf, RowWrite.apply, Table.get?_modify, WorkerStores.statusOf]
  by_cases h : k = id
  · rw [if_pos h, if_pos h, h, Option.map_map, Option.map_map]
    rfl
  · rw [if_neg h, if_neg h]

theorem statusOf_heartbeat (h : WorkerHeartbeat) :
    (RowWrite.apply st (.heartbeat h)).statusOf k = st.statusOf k := rfl

end

/-- What the steps of others leave alone of a worker. -/
structure SameWorker (k : UUID) (st st' : WorkerStores) : Prop where
  status : st'.statusOf k = st.statusOf k
  key : st'.redis.lookup k = st.redis.lookup k

namespace SameWorker

variable {k : UUID} {st st' st'' : WorkerStores}

theorem refl : SameWorker k st st := ⟨rfl, rfl⟩

theorem trans (h : SameWorker k st st') (h' : SameWorker k st' st'') : SameWorker k st st'' :=
  ⟨h'.status.trans h.status, h'.key.trans h.key⟩

end SameWorker

section
variable {st : WorkerStores} {k : UUID} {registry : WorkerRegistry} {now : Timestamp} {s : WorkerSession}
  {c : WorkerCall} {call : Call}

theorem apply_sameWorker {wr : RowWrite} (h : k ≠ wr.workerId) : SameWorker k st (RowWrite.apply st wr) where
  status := by
    cases wr with
    | insert row => exact (statusOf_insert row).trans (if_neg h)
    | lastSeenAt id at_ => rw [statusOf_lastSeenAt]
    | setStatus id status => exact (statusOf_setStatus id status).trans (if_neg h)
    | heartbeat b => rw [statusOf_heartbeat]
  key := by rw [apply_redis]

theorem foldl_apply_sameWorker {writes : List RowWrite} (h : ∀ wr ∈ writes, k ≠ wr.workerId) :
    SameWorker k st (writes.foldl RowWrite.apply st) := by
  induction writes generalizing st with
  | nil => exact .refl
  | cons wr writes ih =>
    rw [List.forall_mem_cons] at h
    exact (apply_sameWorker h.1).trans (ih h.2)

theorem foldl_apply_nextId (writes : List RowWrite) : (writes.foldl RowWrite.apply st).nextId = st.nextId := by
  induction writes generalizing st with
  | nil => rfl
  | cons wr writes ih => rw [List.foldl_cons, ih, apply_nextId]

theorem foldl_apply_redis (writes : List RowWrite) : (writes.foldl RowWrite.apply st).redis = st.redis := by
  induction writes generalizing st with
  | nil => rfl
  | cons wr writes ih => rw [List.foldl_cons, ih, apply_redis]

/-- A call is about the worker of its session only. -/
theorem perform_sameWorker (habout : ∀ wr ∈ s.writes, wr.workerId = s.workerId) (hk : k ≠ s.workerId) :
    SameWorker k st (perform registry now st s call c).stores := by
  cases c with
  | markAlive =>
    refine ⟨by simp only [perform]; split <;> rfl, ?_⟩
    simp only [perform]
    split
    · exact (lookup_renew _).trans (if_neg hk)
    · rfl
  | deregister =>
    refine ⟨by simp only [perform]; split <;> rfl, ?_⟩
    simp only [perform]
    split
    · exact lookup_revoke.trans (if_neg hk)
    · rfl
  | commit =>
    simp only [perform]
    split
    · exact foldl_apply_sameWorker fun wr hwr => (habout wr hwr).symm ▸ hk
    · exact .refl
  | _ => exact ⟨rfl, rfl⟩

theorem perform_nextId (registry : WorkerRegistry) (now : Timestamp) (st : WorkerStores) (s : WorkerSession)
    (call : Call) (c : WorkerCall) : st.nextId ≤ (perform registry now st s call c).stores.nextId := by
  cases c with
  | create => exact Nat.le_succ _
  | commit =>
    simp only [perform]
    split
    · exact (foldl_apply_nextId _).ge
    · exact le_rfl
  | markAlive => simp only [perform]; split <;> exact le_rfl
  | deregister => simp only [perform]; split <;> exact le_rfl
  | _ => exact le_rfl

end

/-! How far the methods of the service are, and what they have flushed. -/

inductive Registers (st : WorkerStores) : List WorkerCall → WorkerSession → Prop
  | create (hostname : String) (pid capacity : ℕ) (w : UUID) (b : Timestamp) :
    Registers st (WorkerService.register hostname pid capacity ++ [.commit]) ⟨w, b, []⟩
  | markAlive (row : Worker) (b : Timestamp) (hnext : row.id < st.nextId) (hnew : st.statusOf row.id = none)
    (hrow : row.status = .online) : Registers st [.markAlive, .commit] ⟨row.id, b, [.insert row]⟩
  | commit (row : Worker) (b : Timestamp) (hnext : row.id < st.nextId) (hnew : st.statusOf row.id = none)
    (hrow : row.status = .online) : Registers st [.commit] ⟨row.id, b, [.insert row]⟩

inductive Beats (w : UUID) : List WorkerCall → WorkerSession → Prop
  | getById (n : ℕ) (b : Timestamp) : Beats w (WorkerService.heartbeat n none none ++ [.commit]) ⟨w, b, []⟩
  | markAlive (n : ℕ) (b : Timestamp) :
    Beats w [.markAlive, .recordHeartbeat n none none, .updateLastSeenAt, .commit] ⟨w, b, []⟩
  | recordHeartbeat (n : ℕ) (b : Timestamp) :
    Beats w [.recordHeartbeat n none none, .updateLastSeenAt, .commit] ⟨w, b, []⟩
  | updateLastSeenAt (h : WorkerHeartbeat) (b : Timestamp) (hw : h.workerId = w) :
    Beats w [.updateLastSeenAt, .commit] ⟨w, b, [.heartbeat h]⟩
  | commit (h : WorkerHeartbeat) (at_ b : Timestamp) (hw : h.workerId = w) :
    Beats w [.commit] ⟨w, b, [.heartbeat h, .lastSeenAt w at_]⟩

inductive Deregisters (st : WorkerStores) (w : UUID) : List WorkerCall → WorkerSession → Prop
  | getById (b : Timestamp) : Deregisters st w (WorkerService.deregister ++ [.commit]) ⟨w, b, []⟩
  | deregister (b : Timestamp) : Deregisters st w [.deregister, .updateStatus .offline, .commit] ⟨w, b, []⟩
  | updateStatus (b : Timestamp) (hkey : st.redis.lookup w = none) :
    Deregisters st w [.updateStatus .offline, .commit] ⟨w, b, []⟩
  | commit (b : Timestamp) (hkey : st.redis.lookup w = none) :
    Deregisters st w [.commit] ⟨w, b, [.setStatus w .offline]⟩

/-- Where a process that is registered may be. -/
inductive Serves (st : WorkerStores) (w : UUID) : WorkerPhase → Prop
  | registered : Serves st w .registered
  | top (c : ConsumeLoop) : Serves st w (.running .top c)
  | beating {calls : List WorkerCall} {s : WorkerSession} (c : ConsumeLoop) (h : Beats w calls s) :
    Serves st w (.running (.beating calls s) c)
  | waiting (until_ : Timestamp) (c : ConsumeLoop) : Serves st w (.running (.waiting until_) c)
  | done (c : ConsumeLoop) : Serves st w (.running .done c)
  | deregistering {calls : List WorkerCall} {s : WorkerSession} (h : Deregisters st w calls s) :
    Serves st w (.deregistering calls s)

/-- What holds of a process and its worker, wherever the process is. -/
inductive Standing (st : WorkerStores) (p : WorkerProcess) : Prop
  | starting (hphase : p.phase = .starting) (hid : p.workerId = none)
  | registering {calls : List WorkerCall} {s : WorkerSession} (hphase : p.phase = .registering calls s)
    (hid : p.workerId = none) (h : Registers st calls s)
  | serving {w : UUID} (hid : p.workerId = some w) (hnext : w < st.nextId) (hstatus : st.statusOf w = some .online)
    (h : Serves st w p.phase)
  | exited (hphase : p.phase = .exited)
    (hnext : ∀ w, p.workerId = some w → w < st.nextId ∧ (st.statusOf w).isSome)

/-- The worker a process has flushed a row for. -/
def WorkerProcess.knows (p : WorkerProcess) : Option UUID :=
  match p.phase with
  | .registering _ ⟨w, _, _ :: _⟩ => some w
  | _ => p.workerId

/-- The steps of a process between the calls of its sessions. -/
inductive Quiet (x : FleetSettings) (now : Timestamp) (p : WorkerProcess) (a : WorkerAction) :
    WorkerProcess → Prop
  | start (hphase : p.phase = .starting) :
    Quiet x now p a { p with
      phase := .registering (WorkerService.register p.hostname p.pid x.workerCapacity ++ [.commit]) p.session
      round := ⟨now, false, 0⟩ }
  | persist (hphase : p.phase = .registered) : Quiet x now p a { p with phase := .running .top .top }
  | beat {c : ConsumeLoop} (hphase : p.phase = .running .top c) (hshutdown : p.shutdownEvent = false) :
    Quiet x now p a { p with
      phase := .running (.beating (WorkerService.heartbeat p.activeTasksCount none none ++ [.commit]) p.session) c
      round := p.round.next now }
  | stop {c : ConsumeLoop} (hphase : p.phase = .running .top c) (hshutdown : p.shutdownEvent = true) :
    Quiet x now p a { p with phase := .running .done c }
  | wake {until_ : Timestamp} {c : ConsumeLoop} (hphase : p.phase = .running (.waiting until_) c) :
    Quiet x now p a { p with phase := .running .top c }
  | consume {h : HeartbeatLoop} {c : ConsumeLoop} (hphase : p.phase = .running h c) (c' : ConsumeLoop) (n : ℕ) :
    Quiet x now p a { p with phase := .running h c', activeTasksCount := n }
  | abort {h : HeartbeatLoop} (hphase : p.phase = .running h .raised) :
    Quiet x now p a { p with phase := .running .done .raised }
  | leave {c : ConsumeLoop} (hphase : p.phase = .running .done c) :
    Quiet x now p a { p with
      phase :=
        if p.workerId.isNone then .exited else .deregistering (WorkerService.deregister ++ [.commit]) p.session }
  | requestShutdown : Quiet x now p a { p with shutdownEvent := true }
  | exit (hend : p.phase = .starting ∨ a = .crash) : Quiet x now p a { p with phase := .exited }

section
variable {x : FleetSettings} {now : Timestamp} {st : WorkerStores} {p : WorkerProcess} {a : WorkerAction}
  {e : ProcessEffect}

/-- What a process may do: the next call of one of its sessions, or nothing to what is stored. -/
theorem processStep_cases (h : processStep x now st p a = some e) :
    (∃ call c calls s, a = .registerCall call ∧ p.phase = .registering (c :: calls) s ∧
        e = registerStep x now st p c calls s call) ∨
      (∃ call c calls s consume, a = .heartbeatCall call ∧ p.phase = .running (.beating (c :: calls) s) consume ∧
        e = heartbeatStep x now st p consume c calls s call) ∨
      (∃ call c calls s, a = .deregisterCall call ∧ p.phase = .deregistering (c :: calls) s ∧
        e = deregisterStep x now st p c calls s call) ∨
      (e.stores = st ∧ Quiet x now p a e.process) := by
  have quiet : ∀ p', (some ⟨st, p'⟩ : Option ProcessEffect) = some e → Quiet x now p a p' →
      e.stores = st ∧ Quiet x now p a e.process := by
    rintro p' ⟨⟩ hp'
    exact ⟨rfl, hp'⟩
  unfold processStep at h
  split at h
  case h_1 call hphase =>
    refine .inr (.inr (.inr (quiet _ h ?_)))
    split
    · exact .start hphase
    · exact .exit (.inl hphase)
  case h_2 call c calls s hphase => exact .inl ⟨call, c, calls, s, rfl, hphase, (Option.some.inj h).symm⟩
  case h_3 hphase => exact .inr (.inr (.inr (quiet _ h (.persist hphase))))
  case h_4 c hphase =>
    refine .inr (.inr (.inr (quiet _ h ?_)))
    split
    case isTrue hshutdown => exact .stop hphase hshutdown
    case isFalse hshutdown => exact .beat hphase (eq_false_of_ne_true hshutdown)
  case h_5 call c calls s consume hphase =>
    exact .inr (.inl ⟨call, c, calls, s, consume, rfl, hphase, (Option.some.inj h).symm⟩)
  case h_6 c hphase =>
    split at h
    · exact .inr (.inr (.inr (quiet _ h (.wake hphase))))
    · cases h
  case h_7 hphase => exact .inr (.inr (.inr (quiet _ h (.consume hphase _ _))))
  case h_8 hphase =>
    split at h
    · refine .inr (.inr (.inr (quiet _ h ?_)))
      split
      · exact .consume hphase _ _
      · exact .consume hphase _ _
    · cases h
  case h_12 hphase => exact .inr (.inr (.inr (quiet _ h (.abort hphase))))
  case h_13 hphase => exact .inr (.inr (.inr (quiet _ h (.leave hphase))))
  case h_14 hphase => exact .inr (.inr (.inr (quiet _ h (.leave hphase))))
  case h_15 call c calls s hphase =>
    exact .inr (.inr (.inl ⟨call, c, calls, s, rfl, hphase, (Option.some.inj h).symm⟩))
  case h_16 => exact .inr (.inr (.inr (quiet _ h .requestShutdown)))
  case h_17 => exact .inr (.inr (.inr (quiet _ h (.exit (.inr rfl)))))
  case h_18 => cases h
  all_goals
    rename_i hphase
    exact .inr (.inr (.inr (quiet _ h (.consume hphase _ _))))

theorem standing_exited (hnext : ∀ w, p.workerId = some w → w < st.nextId ∧ (st.statusOf w).isSome) :
    Standing st { p with phase := .exited } := .exited rfl hnext

variable {c : WorkerCall} {calls : List WorkerCall} {s : WorkerSession} {call : Call}

/-- A registration that goes on, is complete, or has raised. -/
theorem standing_registerStep (hrows : ∀ k, st.nextId ≤ k → st.statusOf k = none) (hid : p.workerId = none)
    (h : Registers st (c :: calls) s) :
    Standing (registerStep x now st p c calls s call).stores (registerStep x now st p c calls s call).process := by
  have hgone : ∀ st' : WorkerStores, Standing st' { p with phase := .exited } := fun st' =>
    standing_exited fun w hw => by rw [hid] at hw; cases hw
  cases hcall : call.returned with
  | false =>
    cases h with
    | _ => simpa [registerStep, perform, hcall] using hgone _
  | true =>
    have heffect : call.tookEffect = true := by cases call <;> first | rfl | cases hcall
    cases h with
    | create hostname pid capacity w b =>
      simp only [registerStep, perform, hcall]
      let row : Worker :=
        { id := st.nextId, hostname, pid, status := .online, capacity, registeredAt := now, lastSeenAt := none }
      exact .registering rfl hid (.markAlive row now (Nat.lt_succ_self st.nextId) (hrows st.nextId le_rfl) rfl)
    | markAlive row b hnext hnew hrow =>
      simp only [registerStep, perform, hcall, heffect, if_true]
      exact .registering rfl hid (.commit row b hnext hnew hrow)
    | commit row b hnext hnew hrow =>
      simp only [registerStep, perform, hcall, heffect, if_true]
      refine .serving rfl hnext ?_ .registered
      rw [List.foldl_cons, List.foldl_nil, statusOf_insert, if_pos rfl, hrow]

variable {w : UUID} {consume : ConsumeLoop}

/-- A heartbeat leaves the statuses alone, and its session goes on to the next call. -/
theorem beats_perform (x : FleetSettings) (now : Timestamp) (st : WorkerStores) (call : Call)
    (h : Beats w (c :: calls) s) :
    (∀ k, (perform x.registry now st s call c).stores.statusOf k = st.statusOf k) ∧
      (calls ≠ [] → Beats w calls (perform x.registry now st s call c).session) := by
  cases h with
  | getById n b => exact ⟨fun _ => rfl, fun _ => .markAlive n now⟩
  | markAlive n b =>
    refine ⟨fun k => ?_, fun _ => .recordHeartbeat n b⟩
    simp only [perform]
    split <;> rfl
  | recordHeartbeat n b => exact ⟨fun _ => rfl, fun _ => .updateLastSeenAt _ b rfl⟩
  | updateLastSeenAt r b hw => exact ⟨fun _ => rfl, fun _ => .commit r now b hw⟩
  | commit r at_ b hw =>
    refine ⟨fun k => ?_, fun h => absurd rfl h⟩
    simp only [perform]
    split
    · rw [List.foldl_cons, List.foldl_cons, List.foldl_nil, statusOf_lastSeenAt, statusOf_heartbeat]
    · rfl

/-- A heartbeat that goes on, or is over. -/
theorem standing_heartbeatStep (hid : p.workerId = some w) (hnext : w < st.nextId)
    (hstatus : st.statusOf w = some .online) (h : Beats w (c :: calls) s) :
    Standing (heartbeatStep x now st p consume c calls s call).stores
      (heartbeatStep x now st p consume c calls s call).process := by
  obtain ⟨hsame, hgo⟩ := beats_perform x now st call h
  refine .serving hid (hnext.trans_le (perform_nextId ..)) ((hsame w).trans hstatus) ?_
  simp only [heartbeatStep]
  split
  case isTrue hmore =>
    rw [Bool.and_eq_true, Bool.not_eq_true', List.isEmpty_eq_false_iff] at hmore
    exact .beating _ (hgo hmore.2)
  case isFalse => exact .waiting _ _

/-- The row is set OFFLINE by the last call, when the key is gone. -/
theorem deregisters_perform (x : FleetSettings) (now : Timestamp) (call : Call) (hstatus : st.statusOf w = some .online)
    (h : Deregisters st w (c :: calls) s) :
    ((perform x.registry now st s call c).stores.statusOf w = some .online ∨
        calls = [] ∧ (perform x.registry now st s call c).stores.statusOf w = some .offline ∧
          (perform x.registry now st s call c).stores.redis.lookup w = none) ∧
      (calls ≠ [] → (perform x.registry now st s call c).returned = true →
        (perform x.registry now st s call c).stores.statusOf w = some .online ∧
          Deregisters (perform x.registry now st s call c).stores w calls
            (perform x.registry now st s call c).session) := by
  cases h with
  | getById b => exact ⟨.inl hstatus, fun _ _ => ⟨hstatus, .deregister now⟩⟩
  | deregister b =>
    simp only [perform]
    refine ⟨.inl (by split <;> exact hstatus), fun _ hcall => ⟨by split <;> exact hstatus, .updateStatus b ?_⟩⟩
    have heffect : call.tookEffect = true := by cases call <;> first | rfl | cases hcall
    rw [if_pos heffect]
    exact lookup_revoke.trans (if_pos rfl)
  | updateStatus b hkey => exact ⟨.inl hstatus, fun _ _ => ⟨hstatus, .commit b hkey⟩⟩
  | commit b hkey =>
    refine ⟨?_, fun h => absurd rfl h⟩
    simp only [perform]
    split
    · refine .inr ⟨trivial, ?_, ?_⟩
      · rw [List.foldl_cons, List.foldl_nil, statusOf_setStatus, if_pos rfl, hstatus, Option.map_some]
      · rw [List.foldl_cons, List.foldl_nil, apply_redis, hkey]
    · exact .inl hstatus

/-- A deregistration that goes on, or ends the process. -/
theorem standing_deregisterStep (hid : p.workerId = some w) (hnext : w < st.nextId)
    (hstatus : st.statusOf w = some .online) (h : Deregisters st w (c :: calls) s) :
    Standing (deregisterStep x now st p c calls s call).stores
      (deregisterStep x now st p c calls s call).process := by
  obtain ⟨hafter, hgo⟩ := deregisters_perform x now call hstatus h
  have hnext' := hnext.trans_le (perform_nextId x.registry now st s call c)
  simp only [deregisterStep]
  split
  case isTrue hmore =>
    rw [Bool.and_eq_true, Bool.not_eq_true', List.isEmpty_eq_false_iff] at hmore
    obtain ⟨honline, hcalls⟩ := hgo hmore.2 hmore.1
    exact .serving hid hnext' honline (.deregistering hcalls)
  case isFalse =>
    refine standing_exited fun v hv => ?_
    rw [hid] at hv
    cases hv
    refine ⟨hnext', ?_⟩
    rcases hafter with honline | ⟨-, hoffline, -⟩
    · rw [honline]
      rfl
    · rw [hoffline]
      rfl

theorem Serves.congr {phase : WorkerPhase} (h : Serves st w phase) {st' : WorkerStores} (hsame : SameWorker w st st') :
    Serves st' w phase := by
  cases h with
  | registered => exact .registered
  | top c => exact .top c
  | beating c h => exact .beating c h
  | waiting until_ c => exact .waiting until_ c
  | done c => exact .done c
  | deregistering h =>
    refine .deregistering ?_
    cases h with
    | getById b => exact .getById b
    | deregister b => exact .deregister b
    | updateStatus b hkey => exact .updateStatus b (hsame.key.trans hkey)
    | commit b hkey => exact .commit b (hsame.key.trans hkey)

theorem session_eq (hid : p.workerId = some w) : p.session = ⟨w, 0, []⟩ := by
  rw [WorkerProcess.session, hid]
  rfl

/-- Nothing but the next call of a session changes what is stored. -/
theorem standing_quiet {p' : WorkerProcess} (h : Standing st p) (hs : Quiet x now p a p') : Standing st p' := by
  cases h with
  | starting hphase hid =>
    cases hs with
    | start => exact .registering rfl hid (.create _ _ _ _ _)
    | requestShutdown => exact .starting hphase hid
    | exit => exact standing_exited fun w hw => by rw [hid] at hw; cases hw
    | _ h => rw [hphase] at h; cases h
  | registering hphase hid hcalls =>
    cases hs with
    | requestShutdown => exact .registering hphase hid hcalls
    | exit => exact standing_exited fun w hw => by rw [hid] at hw; cases hw
    | _ h => rw [hphase] at h; cases h
  | serving hid hnext hstatus hserves =>
    cases hs with
    | start h => rw [h] at hserves; cases hserves
    | persist => exact .serving hid hnext hstatus (.top _)
    | beat => exact .serving hid hnext hstatus (.beating _ (session_eq hid ▸ .getById _ 0))
    | stop => exact .serving hid hnext hstatus (.done _)
    | wake => exact .serving hid hnext hstatus (.top _)
    | consume hphase c' n =>
      rw [hphase] at hserves
      refine .serving hid hnext hstatus ?_
      cases hserves with
      | top => exact .top c'
      | beating c h => exact .beating c' h
      | waiting until_ => exact .waiting until_ c'
      | done => exact .done c'
    | abort => exact .serving hid hnext hstatus (.done _)
    | leave =>
      refine .serving hid hnext hstatus ?_
      simp only [hid, Option.isNone_some, session_eq hid]
      exact .deregistering (.getById 0)
    | requestShutdown => exact .serving hid hnext hstatus hserves
    | exit =>
      refine standing_exited fun v hv => ?_
      rw [hid] at hv
      cases hv
      exact ⟨hnext, by rw [hstatus]; rfl⟩
  | exited hphase hnext =>
    cases hs with
    | requestShutdown => exact .exited hphase hnext
    | exit => exact .exited rfl hnext
    | _ h => rw [hphase] at h; cases h

/-! Which calls are next, by the phase. -/

theorem Standing.registers (h : Standing st p) (hphase : p.phase = .registering calls s) :
    p.workerId = none ∧ Registers st calls s := by
  cases h with
  | registering hphase' hid hcalls =>
    rw [hphase] at hphase'
    cases hphase'
    exact ⟨hid, hcalls⟩
  | serving hid hnext hstatus hserves =>
    rw [hphase] at hserves
    cases hserves
  | starting h => rw [hphase] at h; cases h
  | exited h => rw [hphase] at h; cases h

theorem Standing.serves (h : Standing st p) (hphase : (∃ b c, p.phase = .running b c) ∨
    ∃ calls s, p.phase = .deregistering calls s) :
    ∃ w, p.workerId = some w ∧ w < st.nextId ∧ st.statusOf w = some .online ∧ Serves st w p.phase := by
  cases h with
  | serving hid hnext hstatus hserves => exact ⟨_, hid, hnext, hstatus, hserves⟩
  | starting h => simp [h] at hphase
  | registering h => simp [h] at hphase
  | exited h => simp [h] at hphase

theorem Standing.beats (h : Standing st p) (hphase : p.phase = .running (.beating calls s) consume) :
    ∃ w, p.workerId = some w ∧ w < st.nextId ∧ st.statusOf w = some .online ∧ Beats w calls s := by
  obtain ⟨w, hid, hnext, hstatus, hserves⟩ := h.serves (.inl ⟨_, _, hphase⟩)
  rw [hphase] at hserves
  cases hserves with
  | beating _ hbeats => exact ⟨w, hid, hnext, hstatus, hbeats⟩

theorem Standing.deregisters (h : Standing st p) (hphase : p.phase = .deregistering calls s) :
    ∃ w, p.workerId = some w ∧ w < st.nextId ∧ st.statusOf w = some .online ∧ Deregisters st w calls s := by
  obtain ⟨w, hid, hnext, hstatus, hserves⟩ := h.serves (.inr ⟨_, _, hphase⟩)
  rw [hphase] at hserves
  cases hserves with
  | deregistering hcalls => exact ⟨w, hid, hnext, hstatus, hcalls⟩

theorem standing_step (hrows : ∀ k, st.nextId ≤ k → st.statusOf k = none) (h : Standing st p)
    (hs : processStep x now st p a = some e) : Standing e.stores e.process := by
  rcases processStep_cases hs with ⟨call, c, calls, s, -, hphase, rfl⟩ |
    ⟨call, c, calls, s, consume, -, hphase, rfl⟩ | ⟨call, c, calls, s, -, hphase, rfl⟩ | ⟨hst, hquiet⟩
  · obtain ⟨hid, hcalls⟩ := h.registers hphase
    exact standing_registerStep hrows hid hcalls
  · obtain ⟨w, hid, hnext, hstatus, hcalls⟩ := h.beats hphase
    exact standing_heartbeatStep hid hnext hstatus hcalls
  · obtain ⟨w, hid, hnext, hstatus, hcalls⟩ := h.deregisters hphase
    exact standing_deregisterStep hid hnext hstatus hcalls
  · rw [hst]
    exact standing_quiet h hquiet

theorem knows_eq (hphase : ∀ calls s, p.phase ≠ .registering calls s) : p.knows = p.workerId := by
  rw [WorkerProcess.knows]
  split
  · exact absurd ‹_› (hphase _ _)
  · rfl

/-- A step is about the worker the process knows, if about any. -/
theorem sameWorker_step {k : UUID} (h : Standing st p) (hs : processStep x now st p a = some e)
    (hk : p.knows ≠ some k) : SameWorker k st e.stores := by
  rcases processStep_cases hs with ⟨call, c, calls, s, -, hphase, rfl⟩ |
    ⟨call, c, calls, s, consume, -, hphase, rfl⟩ | ⟨call, c, calls, s, -, hphase, rfl⟩ | ⟨hst, hquiet⟩
  · obtain ⟨hid, hcalls⟩ := h.registers hphase
    rw [WorkerProcess.knows, hphase] at hk
    cases hcalls with
    | create => exact ⟨rfl, rfl⟩
    | markAlive row b =>
      exact perform_sameWorker (by simp [RowWrite.workerId]) fun he => hk (congrArg some he.symm)
    | commit row b =>
      exact perform_sameWorker (by simp [RowWrite.workerId]) fun he => hk (congrArg some he.symm)
  · obtain ⟨w, hid, -, -, hcalls⟩ := h.beats hphase
    rw [knows_eq (by simp [hphase]), hid] at hk
    refine perform_sameWorker ?_ fun he => hk (congrArg some ?_)
    · cases hcalls with
      | updateLastSeenAt r b hw => simp [RowWrite.workerId, hw]
      | commit r at_ b hw => simp [RowWrite.workerId, hw]
      | _ => exact List.forall_mem_nil _
    · cases hcalls with
      | _ => exact he.symm
  · obtain ⟨w, hid, -, -, hcalls⟩ := h.deregisters hphase
    rw [knows_eq (by simp [hphase]), hid] at hk
    refine perform_sameWorker ?_ fun he => hk (congrArg some ?_)
    · cases hcalls with
      | commit => simp [RowWrite.workerId]
      | _ => exact List.forall_mem_nil _
    · cases hcalls with
      | _ => exact he.symm
  · rw [hst]
    exact .refl

theorem nextId_step (hs : processStep x now st p a = some e) : st.nextId ≤ e.stores.nextId := by
  rcases processStep_cases hs with ⟨call, c, calls, s, -, -, rfl⟩ |
    ⟨call, c, calls, s, consume, -, -, rfl⟩ | ⟨call, c, calls, s, -, -, rfl⟩ | ⟨hst, -⟩
  · exact perform_nextId ..
  · exact perform_nextId ..
  · exact perform_nextId ..
  · exact hst ▸ le_rfl

theorem knows_of_workerId (h : Standing st p) {k : UUID} (hk : p.workerId = some k) : p.knows = some k := by
  refine (knows_eq fun calls s hphase => ?_).trans hk
  rw [(h.registers hphase).1] at hk
  cases hk

/-- No step between two calls gives a process another worker. -/
theorem knows_quiet {p' : WorkerProcess} (h : Standing st p) (hs : Quiet x now p a p') {k : UUID}
    (hk : p'.knows = some k) : p.knows = some k := by
  cases hs with
  | requestShutdown => exact hk
  | start hphase => exact knows_of_workerId h hk
  | leave hphase =>
    rw [knows_eq (by split <;> simp)] at hk
    exact knows_of_workerId h hk
  | _ =>
    rw [knows_eq (by simp)] at hk
    exact knows_of_workerId h hk

/-- The id of a new worker is one that nobody has. -/
theorem knows_step (h : Standing st p) (hs : processStep x now st p a = some e) {k : UUID}
    (hk : e.process.knows = some k) : p.knows = some k ∨ k = st.nextId ∧ e.stores.nextId = st.nextId + 1 := by
  rcases processStep_cases hs with ⟨call, c, calls, s, -, hphase, rfl⟩ |
    ⟨call, c, calls, s, consume, -, hphase, rfl⟩ | ⟨call, c, calls, s, -, hphase, rfl⟩ | ⟨hst, hquiet⟩
  · obtain ⟨hid, hcalls⟩ := h.registers hphase
    simp only [registerStep] at hk ⊢
    split at hk
    · cases hcalls with
      | create =>
        cases hk
        exact .inr ⟨rfl, rfl⟩
      | markAlive row b =>
        cases hk
        rw [WorkerProcess.knows, hphase]
        exact .inl rfl
      | commit row b =>
        cases hk
        rw [WorkerProcess.knows, hphase]
        exact .inl rfl
    · rw [knows_eq (by simp), hid] at hk
      cases hk
  · obtain ⟨w, hid, -, -, hcalls⟩ := h.beats hphase
    rw [knows_eq (by simp [heartbeatStep])] at hk
    exact .inl ((knows_eq (by simp [hphase])).trans hk)
  · obtain ⟨w, hid, -, -, hcalls⟩ := h.deregisters hphase
    rw [knows_eq (by simp only [deregisterStep]; split <;> simp)] at hk
    exact .inl ((knows_eq (by simp [hphase])).trans hk)
  · exact .inl (knows_quiet h hquiet hk)

end

end ApiTesting
