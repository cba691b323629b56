import ApiTesting.Proofs.Registration

/-! A worker whose row says OFFLINE has no key any more, and never has one again: its process
deletes the key before it sets the row, and is past its heartbeats by then. -/

namespace ApiTesting

open Keyed Lease Machine Pool

section
variable {x : FleetSettings} {now : Timestamp} {st : WorkerStores} {p : WorkerProcess} {a : WorkerAction}
  {e : ProcessEffect} {k : UUID}

theorem known_lt (h : Standing st p) (hk : p.knows = some k) : k < st.nextId := by
  cases h with
  | starting hphase hid =>
    rw [knows_eq (by simp [hphase]), hid] at hk
    cases hk
  | registering hphase hid hcalls =>
    rw [WorkerProcess.knows, hphase] at hk
    cases hcalls with
    | create => rw [hid] at hk; cases hk
    | markAlive row b hnext => cases hk; exact hnext
    | commit row b hnext => cases hk; exact hnext
  | serving hid hnext hstatus hserves =>
    have hknows := knows_of_workerId (.serving hid hnext hstatus hserves) hid
    rw [hk] at hknows
    cases hknows
    exact hnext
  | exited hphase hnext =>
    rw [knows_eq (by simp [hphase])] at hk
    exact (hnext k hk).1

/-- Only a process that has exited may have a worker that is OFFLINE. -/
theorem exited_of_offline (h : Standing st p) (hk : p.knows = some k) (hoff : st.statusOf k = some .offline) :
    p.phase = .exited := by
  cases h with
  | starting hphase hid =>
    rw [knows_eq (by simp [hphase]), hid] at hk
    cases hk
  | registering hphase hid hcalls =>
    rw [WorkerProcess.knows, hphase] at hk
    cases hcalls with
    | create => rw [hid] at hk; cases hk
    | markAlive row b hnext hnew => cases hk; rw [hnew] at hoff; cases hoff
    | commit row b hnext hnew => cases hk; rw [hnew] at hoff; cases hoff
  | serving hid hnext hstatus hserves =>
    have hknows := knows_of_workerId (.serving hid hnext hstatus hserves) hid
    rw [hk] at hknows
    cases hknows
    rw [hstatus] at hoff
    cases hoff
  | exited hphase => exact hphase

theorem stores_of_exited (hphase : p.phase = .exited) (hs : processStep x now st p a = some e) : e.stores = st := by
  rcases processStep_cases hs with ⟨call, c, calls, s, -, h, -⟩ |
    ⟨call, c, calls, s, consume, -, h, -⟩ | ⟨call, c, calls, s, -, h, -⟩ | ⟨hst, -⟩
  · rw [hphase] at h; cases h
  · rw [hphase] at h; cases h
  · rw [hphase] at h; cases h
  · exact hst

/-- The step that sets a row OFFLINE comes after the key is gone. -/
theorem key_of_offline (h : Standing st p) (hs : processStep x now st p a = some e)
    (hbefore : st.statusOf k ≠ some .offline) (hafter : e.stores.statusOf k = some .offline) :
    e.stores.redis.lookup k = none := by
  by_cases hk : p.knows = some k
  swap
  · exact absurd ((sameWorker_step h hs hk).status.symm.trans hafter) hbefore
  rcases processStep_cases hs with ⟨call, c, calls, s, -, hphase, rfl⟩ |
    ⟨call, c, calls, s, consume, -, hphase, rfl⟩ | ⟨call, c, calls, s, -, hphase, rfl⟩ | ⟨hst, -⟩
  · obtain ⟨hid, hcalls⟩ := h.registers hphase
    rw [WorkerProcess.knows, hphase] at hk
    cases hcalls with
    | create => exact absurd hafter hbefore
    | markAlive row b =>
      simp only [registerStep, perform] at hafter
      split at hafter
      · exact absurd hafter hbefore
      · exact absurd hafter hbefore
    | commit row b hnext hnew hrow =>
      cases hk
      simp only [registerStep, perform] at hafter
      split at hafter
      · rw [List.foldl_cons, List.foldl_nil, statusOf_insert, if_pos rfl, hrow] at hafter
        cases hafter
      · exact absurd hafter hbefore
  · obtain ⟨w, -, -, -, hcalls⟩ := h.beats hphase
    exact absurd (((beats_perform x now st call hcalls).1 k).symm.trans hafter) hbefore
  · obtain ⟨w, hid, -, hstatus, hcalls⟩ := h.deregisters hphase
    obtain rfl : k = w := by
      rw [knows_of_workerId h hid] at hk
      exact (Option.some.inj hk).symm
    rcases (deregisters_perform x now call hstatus hcalls).1 with honline | ⟨-, -, hkey⟩
    · cases honline.symm.trans hafter
    · exact hkey
  · exact absurd (hst ▸ hafter) hbefore

end

/-- Ids are handed out once, and every process is somewhere in its methods. -/
structure Fleet.Sound (s : Fleet) : Prop where
  rows : ∀ k, s.stores.nextId ≤ k → s.stores.statusOf k = none
  standing : ∀ p ∈ s.processes, Standing s.stores p
  distinct : ∀ (i j : ℕ) (p q : WorkerProcess) (k : UUID), s.processes[i]? = some p →
    s.processes[j]? = some q → p.knows = some k → q.knows = some k → i = j

section
variable {x : FleetSettings} {s s' : Fleet} {a : FleetAction}

theorem sound_empty : Fleet.empty.Sound where
  rows := fun _ _ => rfl
  standing := List.forall_mem_nil _
  distinct := by
    intro i j p q k hp
    simp [Fleet.empty] at hp

/-- A step of a process changes nothing for the other ones. -/
theorem standing_congr {st st' : WorkerStores} {p : WorkerProcess} (h : Standing st p)
    (hsame : ∀ k, p.knows = some k → SameWorker k st st') (hnext : st.nextId ≤ st'.nextId) : Standing st' p := by
  cases h with
  | starting hphase hid => exact .starting hphase hid
  | registering hphase hid hcalls =>
    refine .registering hphase hid ?_
    rw [WorkerProcess.knows, hphase] at hsame
    cases hcalls with
    | create => exact .create _ _ _ _ _
    | markAlive row b hlt hnew hrow =>
      exact .markAlive row b (hlt.trans_le hnext) ((hsame _ rfl).status.trans hnew) hrow
    | commit row b hlt hnew hrow =>
      exact .commit row b (hlt.trans_le hnext) ((hsame _ rfl).status.trans hnew) hrow
  | serving hid hlt hstatus hserves =>
    have hw := hsame _ (knows_of_workerId (.serving hid hlt hstatus hserves) hid)
    exact .serving hid (hlt.trans_le hnext) (hw.status.trans hstatus) (hserves.congr hw)
  | exited hphase hlt =>
    refine .exited hphase fun w hw => ⟨(hlt w hw).1.trans_le hnext, ?_⟩
    rw [(hsame w ((knows_eq (by simp [hphase])).trans hw)).status]
    exact (hlt w hw).2

theorem process_step {i : ℕ} {b : WorkerAction} (hs : fleetStep x s (.process i b) = some s') :
    ∃ p e, s.processes[i]? = some p ∧ processStep x s.clock s.stores p b = some e ∧
      s' = { s with
        stores := e.stores
        processes := s.processes.set i e.process
        files := s.filesAfter p b } := by
  simp only [fleetStep] at hs
  split at hs
  case h_1 p hp =>
    obtain ⟨e, he, rfl⟩ := Option.map_eq_some_iff.1 hs
    exact ⟨p, e, hp, he, rfl⟩
  case h_2 => cases hs

theorem Fleet.Sound.unknown (hsound : s.Sound) {i j : ℕ} {p q : WorkerProcess} {k : UUID} (hp : s.processes[i]? = some p)
    (hq : s.processes[j]? = some q) (hij : i ≠ j) (hk : q.knows = some k) : p.knows ≠ some k :=
  fun h => hij (hsound.distinct i j p q k hp hq h hk)

theorem sound_process (hsound : s.Sound) {i : ℕ} {p : WorkerProcess} {b : WorkerAction} {e : ProcessEffect}
    (hp : s.processes[i]? = some p) (hs : processStep x s.clock s.stores p b = some e) {files : ℕ → Option UUID} :
    Fleet.Sound { s with stores := e.stores, processes := s.processes.set i e.process, files } := by
  have hstanding := hsound.standing p (List.mem_of_getElem? hp)
  have hold : ∀ (j : ℕ) (q : WorkerProcess) (k : UUID), (s.processes.set i e.process)[j]? = some q →
      q.knows = some k → k < s.stores.nextId → ∃ q' : WorkerProcess, s.processes[j]? = some q' ∧ q'.knows = some k := by
    intro j q k hq hk hlt
    rcases of_getElem?_set hq with ⟨rfl, rfl⟩ | ⟨-, hq⟩
    · rcases knows_step hstanding hs hk with hk' | ⟨rfl, -⟩
      · exact ⟨p, hp, hk'⟩
      · exact absurd hlt (lt_irrefl _)
    · exact ⟨q, hq, hk⟩
  have hfresh : ∀ (j : ℕ) (q : WorkerProcess) (k : UUID), (s.processes.set i e.process)[j]? = some q →
      q.knows = some k → s.stores.nextId ≤ k → j = i := by
    intro j q k hq hk hle
    rcases of_getElem?_set hq with ⟨hj, -⟩ | ⟨-, hq⟩
    · exact hj
    · exact absurd hle (known_lt (hsound.standing q (List.mem_of_getElem? hq)) hk).not_ge
  refine ⟨fun k hk => ?_, fun q hq => ?_, fun j l q r k hq hr hkq hkr => ?_⟩
  · have hk' := (nextId_step hs).trans hk
    have hne : p.knows ≠ some k := fun h => (known_lt hstanding h).not_ge hk'
    exact (sameWorker_step hstanding hs hne).status.trans (hsound.rows k hk')
  · obtain ⟨j, hq⟩ := List.mem_iff_getElem?.1 hq
    rcases of_getElem?_set hq with ⟨-, rfl⟩ | ⟨hj, hq⟩
    · exact standing_step hsound.rows hstanding hs
    · refine standing_congr (hsound.standing q (List.mem_of_getElem? hq)) (fun k hk => ?_) (nextId_step hs)
      exact sameWorker_step hstanding hs (hsound.unknown hp hq hj.symm hk)
  · rcases lt_or_ge k s.stores.nextId with hlt | hge
    · obtain ⟨q', hq', hkq'⟩ := hold j q k hq hkq hlt
      obtain ⟨r', hr', hkr'⟩ := hold l r k hr hkr hlt
      exact hsound.distinct j l q' r' k hq' hr' hkq' hkr'
    · exact (hfresh j q k hq hkq hge).trans (hfresh l r k hr hkr hge).symm

theorem sound_fleetStep (hsound : s.Sound) (hs : fleetStep x s a = some s') : s'.Sound := by
  cases a with
  | tick d => cases hs; exact ⟨hsound.rows, hsound.standing, hsound.distinct⟩
  | listWorkers => cases hs; exact ⟨hsound.rows, hsound.standing, hsound.distinct⟩
  | isAlive j =>
    simp only [fleetStep] at hs
    split at hs
    · cases hs
      exact ⟨hsound.rows, hsound.standing, hsound.distinct⟩
    · cases hs
  | spawn hostname pid container =>
    cases hs
    have hnone : ∀ k, (WorkerProcess.new hostname pid container).knows ≠ some k := fun k hk => by cases hk
    refine ⟨hsound.rows, fun p hp => ?_, fun i j p q k hp hq hkp hkq => ?_⟩
    · rcases List.mem_append.1 hp with hp | hp
      · exact hsound.standing p hp
      · rw [List.mem_singleton.1 hp]
        exact .starting rfl rfl
    · have hold : ∀ (j : ℕ) (q : WorkerProcess), (s.processes ++ [.new hostname pid container])[j]? = some q →
          q.knows = some k → s.processes[j]? = some q := by
        intro j q hq hk
        rcases of_getElem?_concat hq with rfl | hq
        · exact absurd hk (hnone k)
        · exact hq
      exact hsound.distinct i j p q k (hold i p hp hkp) (hold j q hq hkq) hkp hkq
  | process i b =>
    obtain ⟨p, e, hp, he, rfl⟩ := process_step hs
    exact sound_process hsound hp he

/-- What is OFFLINE has no key, and no request has seen one since it read the row. -/
structure Fleet.Settled (s : Fleet) : Prop where
  sound : s.Sound
  keys : ∀ k, s.stores.statusOf k = some .offline → s.stores.redis.lookup k = none
  rest : ∀ r ∈ s.requests, ∀ w ∈ r.rest, w.status = .offline → s.stores.statusOf w.id = some .offline
  entries : ∀ r ∈ s.requests, ∀ q ∈ r.entries, q.1.status = .offline → q.2 = false

theorem statusOf_of_mem {st : WorkerStores} {w : Worker} (hw : w ∈ st.workers.rows) :
    st.statusOf w.id = some w.status := by
  rw [WorkerStores.statusOf, Table.get?_eq_some_iff.2 ⟨hw, rfl⟩, Option.map_some]

theorem Fleet.Settled.gone (h : s.Settled) {k : UUID} (hk : s.stores.statusOf k = some .offline) :
    s.isAlive k = false :=
  live_eq_false fun e he => by rw [h.keys k hk] at he; cases he

/-- A worker that is OFFLINE stays so. -/
theorem offline_process {i : ℕ} {p : WorkerProcess} {b : WorkerAction} {e : ProcessEffect} {k : UUID} (hsound : s.Sound)
    (hp : s.processes[i]? = some p) (hs : processStep x s.clock s.stores p b = some e)
    (hk : s.stores.statusOf k = some .offline) :
    e.stores.statusOf k = some .offline ∧ e.stores.redis.lookup k = s.stores.redis.lookup k := by
  have hstanding := hsound.standing p (List.mem_of_getElem? hp)
  by_cases hknows : p.knows = some k
  · rw [stores_of_exited (exited_of_offline hstanding hknows hk) hs]
    exact ⟨hk, rfl⟩
  · have hsame := sameWorker_step hstanding hs hknows
    exact ⟨hsame.status.trans hk, hsame.key⟩

theorem settled_step (h : s.Settled) (hs : fleetStep x s a = some s') : s'.Settled := by
  have hsound := sound_fleetStep h.sound hs
  cases a with
  | tick d => cases hs; exact ⟨hsound, h.keys, h.rest, h.entries⟩
  | spawn => cases hs; exact ⟨hsound, h.keys, h.rest, h.entries⟩
  | listWorkers =>
    cases hs
    refine ⟨hsound, h.keys, fun r hr w hw hoff => ?_, fun r hr q hq => ?_⟩
    · rcases List.mem_append.1 hr with hr | hr
      · exact h.rest r hr w hw hoff
      · rw [List.mem_singleton.1 hr] at hw
        rw [← hoff]
        exact statusOf_of_mem ((List.mem_insertionSort _).1 hw)
    · rcases List.mem_append.1 hr with hr | hr
      · exact h.entries r hr q hq
      · rw [List.mem_singleton.1 hr] at hq
        cases hq
  | isAlive j =>
    simp only [fleetStep] at hs
    split at hs
    case h_1 w rest entries hj =>
      cases hs
      have hmem := List.mem_of_getElem? hj
      refine ⟨hsound, h.keys, fun r hr v hv => ?_, fun r hr q hq hoff => ?_⟩
      · rcases List.mem_or_eq_of_mem_set hr with hr | rfl
        · exact h.rest r hr v hv
        · exact h.rest _ hmem v (List.mem_cons_of_mem _ hv)
      · rcases List.mem_or_eq_of_mem_set hr with hr | rfl
        · exact h.entries r hr q hq hoff
        · rcases List.mem_append.1 hq with hq | hq
          · exact h.entries _ hmem q hq hoff
          · rw [List.mem_singleton.1 hq] at hoff ⊢
            exact h.gone (h.rest _ hmem w List.mem_cons_self hoff)
    case h_2 => cases hs
  | process i b =>
    obtain ⟨p, e, hp, he, rfl⟩ := process_step hs
    refine ⟨hsound, fun k hk => ?_, fun r hr w hw hoff => ?_, h.entries⟩
    · by_cases hbefore : s.stores.statusOf k = some .offline
      · exact (offline_process h.sound hp he hbefore).2.trans (h.keys k hbefore)
      · exact key_of_offline (h.sound.standing p (List.mem_of_getElem? hp)) he hbefore hk
    · exact (offline_process h.sound hp he (h.rest r hr w hw hoff)).1

theorem settled_empty : Fleet.empty.Settled where
  sound := sound_empty
  keys := fun _ hk => by cases hk
  rest := List.forall_mem_nil _
  entries := List.forall_mem_nil _

theorem settled_run {as : List FleetAction} (h : Run (fleetStep x) .empty as s) : s.Settled :=
  h.keeps settled_empty fun _ _ _ hi hs => settled_step hi hs

theorem offline_step {k : UUID} (hsound : s.Sound) (hs : fleetStep x s a = some s')
    (hk : s.stores.statusOf k = some .offline) : s'.stores.statusOf k = some .offline := by
  cases a with
  | process i b =>
    obtain ⟨p, e, hp, he, rfl⟩ := process_step hs
    exact (offline_process hsound hp he hk).1
  | isAlive j =>
    simp only [fleetStep] at hs
    split at hs
    · cases hs; exact hk
    · cases hs
  | _ => cases hs; exact hk

/-- A worker whose row says OFFLINE is never reported alive again, by `GET /workers`, however
long ago the request read the row, or by a health check. -/
theorem offline_workers_stay_gone {as bs : List FleetAction} (h : Run (fleetStep x) .empty as s)
    (h' : Run (fleetStep x) s bs s') :
    (∀ w ∈ s.stores.workers.rows, w.status = .offline →
        s'.isAlive w.id = false ∧ ∀ c, s'.files c = some w.id → s'.isHealthy c = false) ∧
      ∀ r ∈ s'.requests, ∀ q ∈ r.entries, q.1.status = .offline → q.2 = false := by
  have hsettled := settled_run (h.append h')
  refine ⟨fun w hw hoff => ?_, hsettled.entries⟩
  have hkept : s'.Sound ∧ s'.stores.statusOf w.id = some .offline := by
    refine h'.keeps (I := fun s => s.Sound ∧ s.stores.statusOf w.id = some .offline)
      ⟨(settled_run h).sound, (statusOf_of_mem hw).trans (congrArg some hoff)⟩ fun s a s' hi hs => ?_
    exact ⟨sound_fleetStep hi.1 hs, offline_step hi.1 hs hi.2⟩
  have hgone := hsettled.gone hkept.2
  refine ⟨hgone, fun c hc => ?_⟩
  rw [Fleet.isHealthy, hc, Option.any_some, hgone]

/-- The process is not killed, and no call of its deregistration fails. -/
def FleetAction.leavesCleanly (i : ℕ) : FleetAction → Bool
  | .process j .crash => j ≠ i
  | .process j (.deregisterCall call) => j ≠ i || call = .ok
  | _ => true

/-- A process that has ended has set its worker OFFLINE. -/
def WorkerProcess.Left (st : WorkerStores) (p : WorkerProcess) : Prop :=
  p.phase = .exited → ∀ w, p.workerId = some w → st.statusOf w = some .offline

theorem left_deregisterStep {now : Timestamp} {st : WorkerStores} {p : WorkerProcess} {w : UUID}
    {c : WorkerCall} {calls : List WorkerCall} {session : WorkerSession} (hid : p.workerId = some w)
    (hstatus : st.statusOf w = some .online) (h : Deregisters st w (c :: calls) session) :
    WorkerProcess.Left (deregisterStep x now st p c calls session .ok).stores
      (deregisterStep x now st p c calls session .ok).process := by
  have hfound : (st.workers.get? w).isSome := by
    rw [WorkerStores.statusOf, Option.map_eq_some_iff] at hstatus
    obtain ⟨row, hrow, -⟩ := hstatus
    exact hrow ▸ rfl
  intro hphase v hv
  rw [show (deregisterStep x now st p c calls session .ok).process.workerId = p.workerId from rfl, hid] at hv
  cases hv
  cases h with
  | getById b =>
    simp [deregisterStep, perform, Call.returned, hfound] at hphase
  | deregister b => cases hphase
  | updateStatus b hkey => cases hphase
  | commit b hkey =>
    refine (statusOf_setStatus w .offline).trans ?_
    rw [if_pos rfl, hstatus, Option.map_some]

theorem left_quiet {now : Timestamp} {st : WorkerStores} {p p' : WorkerProcess} {b : WorkerAction}
    (h : Standing st p) (hleft : p.Left st) (hcrash : b ≠ .crash) (hs : Quiet x now p b p') : p'.Left st := by
  cases hs with
  | requestShutdown => exact hleft
  | exit hend =>
    intro _ w hw
    have hknows := knows_of_workerId h hw
    rcases hend with hphase | rfl
    · cases h with
      | starting _ hid => cases hid.symm.trans hw
      | registering hphase' => rw [hphase] at hphase'; cases hphase'
      | serving _ _ _ hserves => rw [hphase] at hserves; cases hserves
      | exited hphase' => rw [hphase] at hphase'; cases hphase'
    · exact absurd rfl hcrash
  | leave hphase =>
    obtain ⟨w, hid, -⟩ := h.serves (.inl ⟨_, _, hphase⟩)
    intro hexit
    simp [hid] at hexit
  | _ => intro hexit; cases hexit

theorem left_step {now : Timestamp} {st : WorkerStores} {p : WorkerProcess} {b : WorkerAction} {e : ProcessEffect}
    (h : Standing st p) (hleft : p.Left st) (hcrash : b ≠ .crash)
    (hcalls : ∀ call, b = .deregisterCall call → call = .ok) (hs : processStep x now st p b = some e) :
    e.process.Left e.stores := by
  rcases processStep_cases hs with ⟨call, c, calls, session, -, hphase, rfl⟩ |
    ⟨call, c, calls, session, consume, -, hphase, rfl⟩ | ⟨call, c, calls, session, hb, hphase, rfl⟩ | ⟨hst, hquiet⟩
  · obtain ⟨hid, -⟩ := h.registers hphase
    intro hexit w hw
    simp only [registerStep] at hexit hw
    split at hexit
    case isTrue => split at hexit <;> cases hexit
    case isFalse hraised =>
      rw [if_neg hraised, hid] at hw
      cases hw
  · intro hexit
    cases hexit
  · obtain ⟨w, hid, -, hstatus, hderegisters⟩ := h.deregisters hphase
    obtain rfl := hcalls call hb
    exact left_deregisterStep hid hstatus hderegisters
  · rw [hst]
    exact left_quiet h hleft hcrash hquiet

theorem left_fleetStep {i : ℕ} (hsound : s.Sound) (hleft : ∀ p, s.processes[i]? = some p → p.Left s.stores)
    (ha : a.leavesCleanly i) (hs : fleetStep x s a = some s') : ∀ p, s'.processes[i]? = some p → p.Left s'.stores := by
  cases a with
  | tick d => cases hs; exact hleft
  | listWorkers => cases hs; exact hleft
  | isAlive j =>
    simp only [fleetStep] at hs
    split at hs
    · cases hs; exact hleft
    · cases hs
  | spawn hostname pid container =>
    cases hs
    intro p hp
    rcases of_getElem?_concat hp with rfl | hp
    · intro hphase
      cases hphase
    · exact hleft p hp
  | process j b =>
    obtain ⟨p, e, hp, he, rfl⟩ := process_step hs
    intro q hq
    rcases of_getElem?_set hq with ⟨rfl, rfl⟩ | ⟨-, hq⟩
    · refine left_step (hsound.standing p (List.mem_of_getElem? hp)) (hleft p hp) ?_ (fun call hb => ?_) he
      · rintro rfl
        simp [FleetAction.leavesCleanly] at ha
      · rw [hb] at ha
        simpa [FleetAction.leavesCleanly] using ha
    · intro hphase w hw
      exact (offline_process hsound hp he (hleft q hq hphase w hw)).1

/-- A worker process that is not killed, and none of whose calls to deregister fails, has set
its row OFFLINE by the time it has ended. -/
theorem clean_exit_is_offline {as : List FleetAction} {i : ℕ} {p : WorkerProcess} {w : UUID}
    (h : Run (fleetStep x) .empty as s) (hclean : ∀ a ∈ as, a.leavesCleanly i) (hp : s.processes[i]? = some p)
    (hphase : p.phase = .exited) (hw : p.workerId = some w) :
    ∃ row, s.stores.workers.get? w = some row ∧ row.status = .offline := by
  have hleft : s.Sound ∧ ∀ p, s.processes[i]? = some p → p.Left s.stores := by
    refine h.invariant (I := fun s => s.Sound ∧ ∀ p, s.processes[i]? = some p → p.Left s.stores)
      (each_of_mem (P := fun _ a => a.leavesCleanly i) fun a ha _ => hclean a ha) ⟨sound_empty, fun _ hp => by cases hp⟩ ?_
    exact fun s a s' hi ha hs => ⟨sound_fleetStep hi.1 hs, left_fleetStep hi.1 hi.2 ha hs⟩
  exact Option.map_eq_some_iff.1 (hleft.2 p hp hphase w hw)

/-- A worker starts, beats once and is asked to stop. -/
def oneShift : List FleetAction :=
  [.spawn "worker-1" 7 0] ++
    [.ensureGroup .ok, .registerCall .ok, .registerCall .ok, .registerCall .ok, .persist .written, .heartbeatTop,
      .heartbeatCall .ok, .heartbeatCall .ok, .heartbeatCall .ok, .heartbeatCall .ok, .heartbeatCall .ok,
      .requestShutdown, .heartbeatWakes, .heartbeatTop, .consumeTop, .leave, .deregisterCall .ok,
      .deregisterCall .ok, .deregisterCall .ok, .deregisterCall .ok].map (.process 0)

/-- A second worker starts in the same container, and somebody looks. -/
def secondShift : List FleetAction :=
  [.listWorkers, .spawn "worker-1" 8 0, .process 1 (.ensureGroup .ok), .process 1 (.registerCall .ok),
    .process 1 (.registerCall .ok), .process 1 (.registerCall .ok), .isAlive 0]

theorem run_oneShift :
    Run (fleetStep .default) .empty oneShift (final (fleetStep .default) .empty oneShift) := run_final _ (by rfl)

theorem offline_workers_stay_gone_oneShift :
    let s' := final (fleetStep .default) (final (fleetStep .default) .empty oneShift) secondShift
    s'.isAlive 0 = false ∧ s'.isHealthy 0 = false ∧ s'.isAlive 1 = true := by
  have h := offline_workers_stay_gone run_oneShift (run_final secondShift (by rfl))
  obtain ⟨hgone, hhealth⟩ := h.1 ⟨0, "worker-1", 7, .offline, 10, 0, some 0⟩ (.head _) rfl
  exact ⟨hgone, hhealth 0 rfl, by decide +kernel⟩

theorem clean_exit_is_offline_oneShift :
    ∃ row, (final (fleetStep .default) .empty oneShift).stores.workers.get? 0 = some row ∧
      row.status = .offline :=
  clean_exit_is_offline run_oneShift (i := 0) (by decide) rfl rfl rfl

end

end ApiTesting
