import ApiTesting.Proofs.Offline
import Mathlib.Algebra.Order.Group.Nat

/-! What the key of a worker tells about its process. A process whose heartbeats stop, because
it hangs, is killed or has left, is reported gone within the time to live. One that keeps up
with its rounds is reported alive all along, though some of its heartbeats may fail. -/

namespace ApiTesting

open Keyed Lease Machine Pool

section
variable {x : FleetSettings} {now : Timestamp} {st : WorkerStores} {p : WorkerProcess} {a : WorkerAction}
  {e : ProcessEffect} {k w : UUID}

theorem workerId_step (h : Standing st p) (hs : processStep x now st p a = some e) (hw : p.workerId = some w) :
    e.process.workerId = some w := by
  rcases processStep_cases hs with ⟨call, c, calls, s, -, hphase, -⟩ |
    ⟨call, c, calls, s, consume, -, -, rfl⟩ | ⟨call, c, calls, s, -, -, rfl⟩ | ⟨-, hquiet⟩
  · cases (h.registers hphase).1.symm.trans hw
  · exact hw
  · exact hw
  · generalize e.process = p' at hquiet ⊢
    cases hquiet with
    | _ => exact hw

theorem expiry_mono {now now' : Timestamp} (h : now ≤ now') {ttlSeconds : ℕ} :
    expiry now ttlSeconds ≤ expiry now' ttlSeconds :=
  Nat.add_le_add_right (Nat.div_le_div_right h) _

/-- A call leaves the key it is about as it was, sets it, or takes it away. -/
theorem lookup_perform (registry : WorkerRegistry) (now : Timestamp) (st : WorkerStores) (s : WorkerSession)
    (call : Call) (c : WorkerCall) :
    (perform registry now st s call c).stores.redis.lookup s.workerId =
      if call.tookEffect then
        match c with
        | .markAlive => some (expiry now registry.ttlSeconds)
        | .deregister => none
        | _ => st.redis.lookup s.workerId
      else st.redis.lookup s.workerId := by
  cases c with
  | markAlive =>
    simp only [perform]
    split
    · exact (lookup_renew _).trans (if_pos rfl)
    · rfl
  | deregister =>
    simp only [perform]
    split
    · exact lookup_revoke.trans (if_pos rfl)
    · rfl
  | commit =>
    simp only [perform]
    split
    · rw [foldl_apply_redis]
    · rfl
  | _ => exact (ite_self _).symm

/-- A key is set to expire a time to live from now, if it is set. -/
theorem expiry_perform {s : WorkerSession} {call : Call} {c : WorkerCall} {t : ℕ}
    (ht : (perform x.registry now st s call c).stores.redis.lookup k = some t) :
    t = expiry now x.heartbeatTtlSeconds ∨ st.redis.lookup k = some t := by
  cases c with
  | markAlive =>
    simp only [perform] at ht
    split at ht
    · rw [WorkerRegistry.markAlive, lookup_renew] at ht
      split at ht
      · exact .inl (Option.some.inj ht).symm
      · exact .inr ht
    · exact .inr ht
  | deregister =>
    simp only [perform] at ht
    split at ht
    · rw [WorkerRegistry.deregister, lookup_revoke] at ht
      split at ht
      · cases ht
      · exact .inr ht
    · exact .inr ht
  | commit =>
    simp only [perform] at ht
    split at ht
    · rw [foldl_apply_redis] at ht
      exact .inr ht
    · exact .inr ht
  | _ => exact .inr ht

theorem expiry_processStep (hs : processStep x now st p a = some e) {t : ℕ}
    (ht : e.stores.redis.lookup k = some t) :
    t = expiry now x.heartbeatTtlSeconds ∨ st.redis.lookup k = some t := by
  rcases processStep_cases hs with ⟨call, c, calls, s, -, -, rfl⟩ |
    ⟨call, c, calls, s, consume, -, -, rfl⟩ | ⟨call, c, calls, s, -, -, rfl⟩ | ⟨hst, -⟩
  · exact expiry_perform ht
  · exact expiry_perform ht
  · exact expiry_perform ht
  · exact .inr (hst ▸ ht)

/-- Only a heartbeat sets the key of a worker that is registered. -/
theorem key_silent (h : Standing st p) (hw : p.workerId = some w) (hs : processStep x now st p a = some e)
    (ha : ∀ call, a ≠ .heartbeatCall call) {t : ℕ} (ht : e.stores.redis.lookup w = some t) :
    st.redis.lookup w = some t := by
  rcases processStep_cases hs with ⟨call, c, calls, s, -, hphase, -⟩ |
    ⟨call, c, calls, s, consume, hcall, -, -⟩ | ⟨call, c, calls, s, -, hphase, rfl⟩ | ⟨hst, -⟩
  · cases (h.registers hphase).1.symm.trans hw
  · exact absurd hcall (ha call)
  · obtain ⟨v, hid, -, -, hcalls⟩ := h.deregisters hphase
    obtain rfl := Option.some.inj (hid.symm.trans hw)
    have hkey := lookup_perform x.registry now st s call c
    have hsession : s.workerId = v := by cases hcalls <;> rfl
    rw [hsession] at hkey
    rw [deregisterStep, hkey] at ht
    split at ht
    · cases hcalls with
      | deregister => cases ht
      | _ => exact ht
    · exact ht
  · exact hst ▸ ht

end

section
variable {x : FleetSettings} {s s' : Fleet} {a : FleetAction} {w : UUID}

/-- No key outlives the time to live. -/
def Fleet.Expiring (x : FleetSettings) (s : Fleet) : Prop :=
  ∀ k t, s.stores.redis.lookup k = some t → t ≤ expiry s.clock x.heartbeatTtlSeconds

theorem expiring_step (h : s.Expiring x) (hs : fleetStep x s a = some s') : s'.Expiring x := by
  cases a with
  | tick d =>
    cases hs
    exact fun k t ht => (h k t ht).trans (expiry_mono (Nat.le_add_right _ _))
  | spawn => cases hs; exact h
  | listWorkers => cases hs; exact h
  | isAlive j =>
    simp only [fleetStep] at hs
    split at hs
    · cases hs; exact h
    · cases hs
  | process i b =>
    obtain ⟨p, e, hp, he, rfl⟩ := process_step hs
    intro k t ht
    rcases expiry_processStep he ht with rfl | ht
    · exact le_rfl
    · exact h k t ht

/-- Process `i` has worker `w`, whose key does not last beyond the given time. -/
structure Fleet.Fading (i : ℕ) (w : UUID) (until_ : ℕ) (s : Fleet) : Prop where
  sound : s.Sound
  worker : ∃ p, s.processes[i]? = some p ∧ p.workerId = some w
  key : ∀ t, s.stores.redis.lookup w = some t → t ≤ until_

theorem fading_step {i until_ : ℕ} (h : s.Fading i w until_)
    (ha : ∀ call, a ≠ .process i (.heartbeatCall call)) (hs : fleetStep x s a = some s') : s'.Fading i w until_ := by
  have hsound := sound_fleetStep h.sound hs
  obtain ⟨p, hp, hw⟩ := h.worker
  cases a with
  | tick => cases hs; exact ⟨hsound, ⟨p, hp, hw⟩, h.key⟩
  | spawn =>
    cases hs
    refine ⟨hsound, ⟨p, ?_, hw⟩, h.key⟩
    obtain ⟨hi, -⟩ := List.getElem?_eq_some_iff.1 hp
    exact (List.getElem?_append_left hi).trans hp
  | listWorkers => cases hs; exact ⟨hsound, ⟨p, hp, hw⟩, h.key⟩
  | isAlive j =>
    simp only [fleetStep] at hs
    split at hs
    · cases hs; exact ⟨hsound, ⟨p, hp, hw⟩, h.key⟩
    · cases hs
  | process j b =>
    obtain ⟨q, e, hq, he, rfl⟩ := process_step hs
    have hp' := h.sound.standing p (List.mem_of_getElem? hp)
    have hq' := h.sound.standing q (List.mem_of_getElem? hq)
    obtain ⟨hi, -⟩ := List.getElem?_eq_some_iff.1 hp
    by_cases hj : j = i
    · obtain rfl := hj
      obtain rfl := Option.some.inj (hp.symm.trans hq)
      refine ⟨hsound, ⟨e.process, List.getElem?_set_self hi, workerId_step hp' he hw⟩, fun t ht => ?_⟩
      exact h.key t (key_silent hp' hw he (fun call hb => ha call (hb ▸ rfl)) ht)
    · refine ⟨hsound, ⟨p, (List.getElem?_set_ne hj).trans hp, hw⟩, fun t ht => ?_⟩
      have hknows := h.sound.unknown hq hp hj (knows_of_workerId hp' hw)
      exact h.key t ((sameWorker_step hq' he hknows).key.symm.trans ht)

theorem Fleet.isHealthy_eq {c : ℕ} (h : s.files c = some w) : s.isHealthy c = s.isAlive w := by
  rw [Fleet.isHealthy, h, Option.any_some]

/-- Whatever keeps a process from its heartbeats, `GET /workers` and the health check of its
container report it gone once the time to live has passed. -/
theorem silent_worker_expires {as bs : List FleetAction} {i : ℕ} {p : WorkerProcess}
    (h : Run (fleetStep x) .empty as s) (hp : s.processes[i]? = some p) (hw : p.workerId = some w)
    (h' : Run (fleetStep x) s bs s') (hsilent : ∀ a ∈ bs, ∀ call, a ≠ .process i (.heartbeatCall call))
    (hlate : expiry s.clock x.heartbeatTtlSeconds < milliseconds s'.clock) :
    s'.isAlive w = false ∧ ∀ c, s'.files c = some w → s'.isHealthy c = false := by
  have hexpiring : s.Expiring x := h.keeps (I := Fleet.Expiring x) (by intro k t ht; cases ht) fun _ _ _ => expiring_step
  have hfading : s'.Fading i w (expiry s.clock x.heartbeatTtlSeconds) :=
    h'.invariant (each_of_mem (P := fun _ a => ∀ call, a ≠ .process i (.heartbeatCall call)) fun a ha _ => hsilent a ha)
      ⟨(settled_run h).sound, ⟨p, hp, hw⟩, hexpiring w⟩ fun _ _ _ hi ha => fading_step hi ha
  have hgone : s'.isAlive w = false := live_eq_false fun t ht => (hfading.key t ht).trans_lt hlate
  exact ⟨hgone, fun c hc => (Fleet.isHealthy_eq hc).trans hgone⟩

/-- A worker that has just beaten hangs in its next heartbeat. -/
def stuck : List FleetAction :=
  [.tick (seconds 5), .process 0 .heartbeatWakes, .process 0 .heartbeatTop, .tick (seconds 11)]

theorem silent_worker_expires_stuck :
    let s := final (fleetStep .default) .empty (oneShift.take 12)
    s.isAlive 0 = true ∧ (final (fleetStep .default) s stuck).isAlive 0 = false := by
  refine ⟨by decide +kernel, ?_⟩
  refine (silent_worker_expires (i := 0) (run_final (oneShift.take 12) (by decide +kernel)) (by rfl) (by rfl)
    (run_final stuck (by decide +kernel)) (fun a ha call => ?_) (by decide +kernel)).1
  rintro rfl
  simp [stuck] at ha

end

/-- The process is registered and has its heartbeat loop to run. -/
def WorkerProcess.up (p : WorkerProcess) : Bool :=
  match p.phase with
  | .registered => true
  | .running .done _ => false
  | .running _ _ => true
  | _ => false

/-- How long a round of the heartbeat loop lasts at most, where the process is late by `lag`. -/
def FleetSettings.roundLimit (x : FleetSettings) (lag : Timestamp) : Timestamp :=
  seconds x.workerHeartbeatIntervalSeconds + lag

/-- The process reaches the mark of a round within `lag`, the next round within the interval and
`lag`, and has not missed more than `k` marks in a row. -/
def WorkerProcess.onTime (x : FleetSettings) (lag : Timestamp) (k : ℕ) (now : Timestamp) (p : WorkerProcess) : Bool :=
  match p.phase with
  | .running (.beating _ _) _ => now ≤ p.round.began + if p.round.renewed then x.roundLimit lag else lag
  | _ => now ≤ p.round.began + x.roundLimit lag && p.round.behind ≤ k

/-- The process keeps up as long as nobody has asked it to stop. -/
def Fleet.keepsUp (x : FleetSettings) (lag : Timestamp) (k i : ℕ) (s : Fleet) : Bool :=
  (s.processes[i]?).all fun p => p.up → p.shutdownEvent = false → p.onTime x lag k s.clock

section
variable {x : FleetSettings} {lag now : Timestamp} {n : ℕ} {st st' : WorkerStores} {p p' : WorkerProcess}
  {a : WorkerAction} {e : ProcessEffect} {w : UUID}

/-- The last moment at which a key is there. -/
def lastMoment (expiresAt : ℕ) : ℕ := expiresAt * 1000 + 999

theorem le_lastMoment_expiry (now ttlSeconds : ℕ) :
    now + seconds ttlSeconds ≤ lastMoment (expiry now ttlSeconds) := by
  simp only [lastMoment, expiry, milliseconds, seconds]
  omega

theorem milliseconds_le_of_lt {now expiresAt : ℕ} (h : now < lastMoment expiresAt) : milliseconds now ≤ expiresAt := by
  simp only [lastMoment] at h
  simp only [milliseconds]
  omega

/-- The key of a worker covers the rounds of its process. -/
def Covered (x : FleetSettings) (lag : Timestamp) (st : WorkerStores) (w : UUID) (r : Round Timestamp) : Prop :=
  ∃ t, st.redis.lookup w = some t ∧ r.Covers (seconds x.heartbeatTtlSeconds) (x.roundLimit lag) (lastMoment t)

/-- From the mark of its registration on, the key of a process covers its rounds. -/
structure Alive (x : FleetSettings) (lag now : Timestamp) (n : ℕ) (st : WorkerStores) (p : WorkerProcess) : Prop where
  began : p.round.began ≤ now
  committing : ∀ s, p.phase = .registering [.commit] s → Covered x lag st s.workerId p.round
  up : p.up → ∀ w, p.workerId = some w → Covered x lag st w p.round
  beating : ∀ calls s c, p.phase = .running (.beating calls s) c → p.round.behind ≤ n + 1

/-- A process whose key need not be there. -/
theorem Alive.down (hbegan : p.round.began ≤ now) (hup : p.up = false)
    (hphase : ∀ s, p.phase ≠ .registering [.commit] s) : Alive x lag now n st p where
  began := hbegan
  committing := fun s h => absurd h (hphase s)
  up := fun h => by
    rw [hup] at h
    cases h
  beating := fun calls s c h => by
    rw [WorkerProcess.up, h] at hup
    cases hup

variable {c : WorkerCall} {calls : List WorkerCall} {s : WorkerSession} {call : Call}

theorem Covered.congr {r : Round Timestamp} (h : Covered x lag st w r) (hkey : st'.redis.lookup w = st.redis.lookup w) :
    Covered x lag st' w r := by
  obtain ⟨t, ht, hcovers⟩ := h
  exact ⟨t, hkey.trans ht, hcovers⟩

theorem covered_mark (hbegan : p.round.began ≤ now) (heffect : call.tookEffect = true) :
    Covered x lag (perform x.registry now st s call .markAlive).stores s.workerId
      (p.marking .markAlive call) := by
  refine ⟨expiry now x.heartbeatTtlSeconds, ?_, ?_⟩
  · exact (lookup_perform x.registry now st s call .markAlive).trans (if_pos heffect)
  · rw [WorkerProcess.marking, if_pos heffect]
    exact Round.covers_renew ((Nat.add_le_add_right hbegan _).trans (le_lastMoment_expiry _ _))

/-- A call of a heartbeat leaves the key in place, or renews it. -/
theorem covered_beat (hbegan : p.round.began ≤ now) (h : Beats w (c :: calls) s)
    (hcovered : Covered x lag st w p.round) :
    Covered x lag (perform x.registry now st s call c).stores w (p.marking c call) := by
  have hsession : s.workerId = w := by cases h <;> rfl
  have hkey := lookup_perform x.registry now st s call c
  rw [hsession] at hkey
  cases heffect : call.tookEffect with
  | false =>
    rw [heffect] at hkey
    have hround : p.marking c call = p.round := by cases c <;> simp [WorkerProcess.marking, heffect]
    rw [hround]
    exact hcovered.congr hkey
  | true =>
    rw [heffect] at hkey
    cases h with
    | markAlive n b => exact covered_mark hbegan heffect
    | _ => exact hcovered.congr hkey

theorem behind_marking (p : WorkerProcess) (c : WorkerCall) (call : Call) :
    (p.marking c call).behind ≤ p.round.behind ∧ (p.marking c call).began = p.round.began := by
  cases c with
  | markAlive =>
    rw [WorkerProcess.marking]
    split
    · exact ⟨Nat.zero_le _, rfl⟩
    · exact ⟨le_rfl, rfl⟩
  | _ => exact ⟨le_rfl, rfl⟩

theorem alive_heartbeatStep {consume : ConsumeLoop} (hid : p.workerId = some w)
    (hphase : p.phase = .running (.beating (c :: calls) s) consume) (h : Beats w (c :: calls) s)
    (halive : Alive x lag now n st p) :
    Alive x lag now n (heartbeatStep x now st p consume c calls s call).stores
      (heartbeatStep x now st p consume c calls s call).process := by
  have hmarking := behind_marking p c call
  refine ⟨hmarking.2.trans_le halive.began, fun _ h => ?_, fun _ v hv => ?_, fun _ _ _ _ => ?_⟩
  · cases h
  · obtain rfl := Option.some.inj (hid.symm.trans hv)
    exact covered_beat halive.began h (halive.up (by rw [WorkerProcess.up, hphase]) w hid)
  · exact hmarking.1.trans (halive.beating _ _ _ hphase)

theorem alive_registerStep (hphase : p.phase = .registering (c :: calls) s)
    (h : Registers st (c :: calls) s) (halive : Alive x lag now n st p) :
    Alive x lag now n (registerStep x now st p c calls s call).stores
      (registerStep x now st p c calls s call).process := by
  simp only [registerStep]
  split
  case isFalse => exact .down halive.began rfl fun _ h => by cases h
  case isTrue hreturned =>
    have hbegan := (behind_marking p c call).2.trans_le halive.began
    cases h with
    | create => exact .down hbegan rfl fun _ h => by cases h
    | markAlive row b =>
      have heffect : call.tookEffect = true := by cases call <;> first | rfl | cases hreturned
      refine ⟨hbegan, fun s' hs' => ?_, fun h => (by cases h), fun _ _ _ h => by cases h⟩
      cases hs'
      exact covered_mark halive.began heffect
    | commit row b =>
      refine ⟨hbegan, fun _ h => (by cases h), fun _ w hw => ?_, fun _ _ _ h => by cases h⟩
      cases hw
      refine (halive.committing _ hphase).congr ?_
      have hkey := lookup_perform x.registry now st ⟨row.id, b, [.insert row]⟩ call .commit
      rwa [ite_self] at hkey

/-- The next round begins in time. -/
theorem alive_beat {consume : ConsumeLoop} (halive : Alive x lag now n st p) (hphase : p.phase = .running .top consume)
    (hon : p.onTime x lag n now) {calls : List WorkerCall} {s : WorkerSession} :
    Alive x lag now n st
      { p with phase := .running (.beating calls s) consume, round := p.round.next now } := by
  rw [WorkerProcess.onTime, hphase] at hon
  simp only [Bool.and_eq_true, decide_eq_true_eq] at hon
  refine ⟨le_rfl, fun _ h => (by cases h), fun _ w hw => ?_, fun _ _ _ _ => ?_⟩
  · obtain ⟨t, ht, hcovers⟩ := halive.up (by rw [WorkerProcess.up, hphase]) w hw
    exact ⟨t, ht, hcovers.next hon.1⟩
  · rw [Round.behind_next]
    exact Nat.succ_le_succ hon.2

theorem alive_quiet (halive : Alive x lag now n st p)
    (hon : p.up → p.shutdownEvent = false → p.onTime x lag n now) (hs : Quiet x now p a p') :
    Alive x lag now n st p' := by
  cases hs with
  | start => exact .down le_rfl rfl fun _ h => by cases h
  | persist hphase =>
    exact ⟨halive.began, fun _ h => (by cases h), fun _ => halive.up (by rw [WorkerProcess.up, hphase]),
      fun _ _ _ h => by cases h⟩
  | beat hphase hshutdown => exact alive_beat halive hphase (hon (by rw [WorkerProcess.up, hphase]) hshutdown)
  | stop => exact .down halive.began rfl fun _ h => by cases h
  | wake hphase =>
    exact ⟨halive.began, fun _ h => (by cases h), fun _ => halive.up (by rw [WorkerProcess.up, hphase]),
      fun _ _ _ h => by cases h⟩
  | @consume h c hphase c' m =>
    refine ⟨halive.began, fun _ h => (by cases h), fun hup => halive.up ?_, fun calls s c' hc => ?_⟩
    · rw [WorkerProcess.up, hphase]
      cases h <;> exact hup
    · cases hc
      exact halive.beating calls s c hphase
  | abort => exact .down halive.began rfl fun _ h => by cases h
  | leave hphase =>
    cases p.workerId.isNone with
    | _ => exact .down halive.began rfl fun _ h => by cases h
  | requestShutdown => exact ⟨halive.began, halive.committing, halive.up, halive.beating⟩
  | exit => exact .down halive.began rfl fun _ h => by cases h

theorem alive_step (h : Standing st p) (halive : Alive x lag now n st p)
    (hon : p.up → p.shutdownEvent = false → p.onTime x lag n now) (hs : processStep x now st p a = some e) :
    Alive x lag now n e.stores e.process := by
  rcases processStep_cases hs with ⟨call, c, calls, s, -, hphase, rfl⟩ |
    ⟨call, c, calls, s, consume, -, hphase, rfl⟩ | ⟨call, c, calls, s, -, hphase, rfl⟩ | ⟨hst, hquiet⟩
  · exact alive_registerStep hphase (h.registers hphase).2 halive
  · obtain ⟨w, hid, -, -, hcalls⟩ := h.beats hphase
    exact alive_heartbeatStep hid hphase hcalls halive
  · simp only [deregisterStep]
    split
    · exact .down halive.began rfl fun _ h => by cases h
    · exact .down halive.began rfl fun _ h => by cases h
  · rw [hst]
    exact alive_quiet halive hon hquiet

/-- A key that covers the rounds of a process that keeps up has not expired. -/
theorem live_of_onTime (halive : Alive x lag now n st p) (hup : p.up) (hw : p.workerId = some w)
    (hon : p.onTime x lag n now)
    (hfit : lag + (n + 1) * x.roundLimit lag < seconds x.heartbeatTtlSeconds) :
    live st.redis w (milliseconds now) = true := by
  obtain ⟨t, ht, hcovers⟩ := halive.up hup w hw
  refine live_iff.2 ⟨t, ht, milliseconds_le_of_lt ?_⟩
  have hwhole : x.roundLimit lag + n • x.roundLimit lag < seconds x.heartbeatTtlSeconds := by
    calc x.roundLimit lag + n • x.roundLimit lag
        = (n + 1) * x.roundLimit lag := by rw [Nat.nsmul_eq_mul, Nat.succ_mul, Nat.add_comm]
      _ ≤ lag + (n + 1) * x.roundLimit lag := Nat.le_add_left _ _
      _ < seconds x.heartbeatTtlSeconds := hfit
  rw [WorkerProcess.onTime] at hon
  split at hon
  case h_1 calls s c hphase =>
    have hnow := of_decide_eq_true hon
    cases hrenewed : p.round.renewed with
    | true =>
      rw [hrenewed, if_pos rfl] at hnow
      have hbehind : p.round.behind ≤ n := by rw [Round.behind, hrenewed]; exact Nat.zero_le _
      exact hcovers.lt (Nat.zero_le _) hbehind hnow hwhole
    | false =>
      rw [hrenewed, if_neg Bool.false_ne_true] at hnow
      exact hcovers.lt (Nat.zero_le _) (halive.beating _ _ _ hphase) hnow hfit
  case h_2 =>
    rw [Bool.and_eq_true, decide_eq_true_eq, decide_eq_true_eq] at hon
    exact hcovers.lt (Nat.zero_le _) hon.2 hon.1 hwhole

/-- Process `i`, if it has started, has a key that covers its rounds. -/
structure Fleet.Tended (x : FleetSettings) (lag : Timestamp) (n i : ℕ) (s : Fleet) : Prop where
  sound : s.Sound
  alive : ∀ p, s.processes[i]? = some p → Alive x lag s.clock n s.stores p

theorem Alive.congr {p : WorkerProcess} {now' : Timestamp} (h : Alive x lag now n st p) (hnow : now ≤ now')
    (hstanding : Standing st p) (hsame : ∀ k, p.knows = some k → st'.redis.lookup k = st.redis.lookup k) :
    Alive x lag now' n st' p where
  began := h.began.trans hnow
  committing := fun s hphase => by
    refine (h.committing s hphase).congr (hsame _ ?_)
    rw [WorkerProcess.knows, hphase]
    cases (hstanding.registers hphase).2 with
    | commit => rfl
  up := fun hup w hw => (h.up hup w hw).congr (hsame w (knows_of_workerId hstanding hw))
  beating := h.beating

theorem keepsUp_iff {i : ℕ} {s : Fleet} (hp : s.processes[i]? = some p) :
    s.keepsUp x lag n i = true ↔ (p.up → p.shutdownEvent = false → p.onTime x lag n s.clock) := by
  rw [Fleet.keepsUp, hp, Option.all_some, decide_eq_true_eq]

theorem tended_step {i : ℕ} {s s' : Fleet} {a : FleetAction} (h : s.Tended x lag n i) (hon : s.keepsUp x lag n i)
    (hs : fleetStep x s a = some s') : s'.Tended x lag n i := by
  have hsound := sound_fleetStep h.sound hs
  cases a with
  | tick d =>
    cases hs
    refine ⟨hsound, fun p hp => ?_⟩
    exact (h.alive p hp).congr (Nat.le_add_right _ _) (h.sound.standing p (List.mem_of_getElem? hp)) fun _ _ => rfl
  | listWorkers => cases hs; exact ⟨hsound, h.alive⟩
  | isAlive j =>
    simp only [fleetStep] at hs
    split at hs
    · cases hs; exact ⟨hsound, h.alive⟩
    · cases hs
  | spawn hostname pid container =>
    cases hs
    refine ⟨hsound, fun p hp => ?_⟩
    rcases of_getElem?_concat hp with rfl | hp
    · exact .down (Nat.zero_le _) rfl fun _ h => by cases h
    · exact h.alive p hp
  | process j b =>
    obtain ⟨q, e, hq, he, rfl⟩ := process_step hs
    have hq' := h.sound.standing q (List.mem_of_getElem? hq)
    refine ⟨hsound, fun p hp => ?_⟩
    rcases of_getElem?_set hp with ⟨rfl, rfl⟩ | ⟨hj, hp⟩
    · exact alive_step hq' (h.alive q hq) ((keepsUp_iff hq).1 hon) he
    · refine (h.alive p hp).congr le_rfl (h.sound.standing p (List.mem_of_getElem? hp)) fun k hk => ?_
      exact (sameWorker_step hq' he (h.sound.unknown hq hp hj.symm hk)).key

/-- A worker whose process keeps up with its rounds is reported alive from its registration until
it is asked to stop, whatever the other processes do, as long as the rounds that may be missed in
a row fit into the time to live. -/
theorem beating_worker_stays_alive {as : List FleetAction} {i : ℕ} {s : Fleet} {p : WorkerProcess}
    (hfit : lag + (n + 1) * x.roundLimit lag < seconds x.heartbeatTtlSeconds)
    (h : Run (fleetStep x) .empty as s) (htime : Each (fleetStep x) (fun s _ => s.keepsUp x lag n i) .empty as)
    (hnow : s.keepsUp x lag n i) (hp : s.processes[i]? = some p) (hw : p.workerId = some w) (hup : p.up)
    (hrunning : p.shutdownEvent = false) :
    s.isAlive w = true ∧ ∀ c, s.files c = some w → s.isHealthy c = true := by
  have htended : s.Tended x lag n i :=
    h.invariant htime ⟨sound_empty, fun _ hp => by cases hp⟩ fun _ _ _ hi hon hs => tended_step hi hon hs
  have hon : p.onTime x lag n s.clock := (keepsUp_iff hp).1 hnow hup hrunning
  have halive : s.isAlive w = true := live_of_onTime (htended.alive p hp) hup hw hon hfit
  exact ⟨halive, fun c hc => (Fleet.isHealthy_eq hc).trans halive⟩

/-- Every other heartbeat of the worker fails. -/
def unsteadyShift : List FleetAction :=
  .spawn "worker-1" 7 0 ::
    [.ensureGroup .ok, .registerCall .ok, .registerCall .ok, .registerCall .ok, .persist .written, .heartbeatTop,
      .heartbeatCall .raisedBefore].map (.process 0) ++
    .tick (seconds 5) ::
    [.heartbeatWakes, .heartbeatTop, .heartbeatCall .ok, .heartbeatCall .ok, .heartbeatCall .ok,
      .heartbeatCall .raisedBefore].map (.process 0) ++
    .tick (seconds 6) ::
    [.heartbeatWakes, .heartbeatTop, .heartbeatCall .raisedBefore].map (.process 0) ++ [.tick (seconds 5)]

theorem run_unsteadyShift :
    Run (fleetStep .default) .empty unsteadyShift (final (fleetStep .default) .empty unsteadyShift) :=
  run_final _ (by decide +kernel)

theorem beating_worker_stays_alive_unsteadyShift :
    (final (fleetStep .default) .empty unsteadyShift).isAlive 0 = true := by
  refine (beating_worker_stays_alive (i := 0) (n := 1) (w := 0) (by decide : seconds 1 + _ < _) run_unsteadyShift
    (each_of_eachB (fun _ _ h => h) (by decide +kernel)) (by decide +kernel) (by rfl) (by decide +kernel)
    (by decide +kernel) (by decide +kernel)).1

end

end ApiTesting
