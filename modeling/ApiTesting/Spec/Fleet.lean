import ApiTesting.Lib.Lease
import ApiTesting.Lib.Machine
import ApiTesting.Spec.Queue

/-! `worker.main`, `app.services.worker_service`, `app.queue.worker_registry`: the workers as
processes. Each has a durable row in Postgres and a key in Redis that expires, which it
refreshes in a loop beside the one that consumes tasks; `GET /workers` and the container's
health check read the key. A step is what one task of one process does between two awaits. -/

namespace ApiTesting

open Keyed Lease

inductive WorkerStatus
  | online
  | offline
  | draining
deriving DecidableEq

structure Worker where
  id : UUID
  hostname : String
  pid : ℕ
  status : WorkerStatus
  capacity : ℕ
  registeredAt : Timestamp
  lastSeenAt : Option Timestamp

structure WorkerHeartbeat where
  workerId : UUID
  heartbeatAt : Timestamp
  activeTasksCount : ℕ
  cpuUsage : Option PyFloat
  memoryUsage : Option PyFloat

def seconds (n : ℕ) : Timestamp := n * 1000000

/-- `HEARTBEAT_TTL_SECONDS`. -/
def heartbeatTtlSeconds : ℕ := 15

/-- The keys `worker:{worker_id}:alive`, with the milliseconds they expire in. -/
abbrev AliveKeys := Lease.Keys UUID ℕ

structure WorkerRegistry where
  ttlSeconds : ℕ

namespace WorkerRegistry

def markAlive (r : WorkerRegistry) (workerId : UUID) (now : Timestamp) (redis : AliveKeys) : AliveKeys :=
  renew (r.ttlSeconds * 1000) workerId (milliseconds now) redis

def isAlive (workerId : UUID) (now : Timestamp) (redis : AliveKeys) : Bool := live redis workerId (milliseconds now)

def deregister (workerId : UUID) (redis : AliveKeys) : AliveKeys := revoke workerId redis

end WorkerRegistry

/-- What is stored about workers; ids are handed out in order. -/
structure WorkerStores where
  workers : Table Worker.id
  heartbeats : List WorkerHeartbeat
  redis : AliveKeys
  nextId : UUID

/-- What a session has flushed and not committed. -/
inductive RowWrite
  | insert (w : Worker)
  | lastSeenAt (workerId : UUID) (at_ : Timestamp)
  | setStatus (workerId : UUID) (status : WorkerStatus)
  | heartbeat (h : WorkerHeartbeat)

def RowWrite.apply (st : WorkerStores) : RowWrite → WorkerStores
  | .insert w => { st with workers := st.workers.set w }
  | .lastSeenAt id at_ => { st with workers := st.workers.modify id fun w => { w with lastSeenAt := some at_ } }
  | .setStatus id status => { st with workers := st.workers.modify id fun w => { w with status } }
  | .heartbeat h => { st with heartbeats := st.heartbeats ++ [h] }

/-- A call of the repository, of the registry, or the COMMIT. -/
inductive WorkerCall
  | create (hostname : String) (pid capacity : ℕ)
  | getById
  | markAlive
  | deregister
  | recordHeartbeat (activeTasksCount : ℕ) (cpuUsage memoryUsage : Option PyFloat)
  | updateLastSeenAt
  | updateStatus (status : WorkerStatus)
  | commit

/-! The methods of the service, call by call. -/

namespace WorkerService

def register (hostname : String) (pid capacity : ℕ) : List WorkerCall :=
  [.create hostname pid capacity, .markAlive]

def heartbeat (activeTasksCount : ℕ) (cpuUsage memoryUsage : Option PyFloat) : List WorkerCall :=
  [.getById, .markAlive, .recordHeartbeat activeTasksCount cpuUsage memoryUsage, .updateLastSeenAt]

def deregister : List WorkerCall := [.getById, .deregister, .updateStatus .offline]

end WorkerService

/-- A session, the worker its calls are about, and the time of its first statement. -/
structure WorkerSession where
  workerId : UUID
  beganAt : Timestamp
  writes : List RowWrite

/-- What one call leaves; where it raised, the session is closed without a COMMIT. -/
structure CallResult where
  returned : Bool
  stores : WorkerStores
  session : WorkerSession

def WorkerSession.write (s : WorkerSession) (w : RowWrite) : WorkerSession := { s with writes := s.writes ++ [w] }

def perform (registry : WorkerRegistry) (now : Timestamp) (st : WorkerStores) (s : WorkerSession) (call : Call) :
    WorkerCall → CallResult
  | .create hostname pid capacity =>
    let worker : Worker :=
      { id := st.nextId, hostname, pid, status := .online, capacity, registeredAt := now, lastSeenAt := none }
    ⟨call.returned, { st with nextId := st.nextId + 1 }, ⟨worker.id, now, [.insert worker]⟩⟩
  | .getById => ⟨call.returned && (st.workers.get? s.workerId).isSome, st, { s with beganAt := now }⟩
  | .markAlive =>
    ⟨call.returned,
      if call.tookEffect then { st with redis := registry.markAlive s.workerId now st.redis } else st, s⟩
  | .deregister =>
    ⟨call.returned,
      if call.tookEffect then { st with redis := WorkerRegistry.deregister s.workerId st.redis } else st, s⟩
  | .recordHeartbeat activeTasksCount cpuUsage memoryUsage =>
    ⟨call.returned, st,
      s.write (.heartbeat ⟨s.workerId, s.beganAt, activeTasksCount, cpuUsage, memoryUsage⟩)⟩
  | .updateLastSeenAt => ⟨call.returned, st, s.write (.lastSeenAt s.workerId now)⟩
  | .updateStatus status => ⟨call.returned, st, s.write (.setStatus s.workerId status)⟩
  | .commit => ⟨call.returned, if call.tookEffect then s.writes.foldl RowWrite.apply st else st, s⟩

/-- Where `_heartbeat_loop` is. -/
inductive HeartbeatLoop
  | top
  | beating (calls : List WorkerCall) (session : WorkerSession)
  | waiting (until_ : Timestamp)
  | done

/-- Where `_consume_loop` is; the tasks it has in hand are those of the platform's model. -/
inductive ConsumeLoop
  | top
  | consuming
  | gathering
  | recording
  | done
  | raised

/-- Where `start` is. -/
inductive WorkerPhase
  | starting
  | registering (calls : List WorkerCall) (session : WorkerSession)
  | registered
  | running (heartbeat : HeartbeatLoop) (consume : ConsumeLoop)
  | deregistering (calls : List WorkerCall) (session : WorkerSession)
  | exited

/-- `round` is a history: the round of the heartbeat loop the process is in. The registration
counts as one. -/
structure WorkerProcess where
  hostname : String
  pid : ℕ
  container : ℕ
  workerId : Option UUID
  activeTasksCount : ℕ
  shutdownEvent : Bool
  phase : WorkerPhase
  round : Round Timestamp

/-- What became of `WORKER_ID_FILE.write_text`. -/
inductive FileWrite
  | written
  | unopened
  | broken

/-- What a task of a process does next. -/
inductive WorkerAction
  | ensureGroup (call : Call)
  | registerCall (call : Call)
  | persist (write : FileWrite)
  | heartbeatTop
  | heartbeatCall (call : Call)
  | heartbeatWakes
  | consumeTop
  | consumed (entries : ℕ)
  | consumeRaised
  | gathered
  | recorded
  | abort
  | leave
  | deregisterCall (call : Call)
  | requestShutdown
  | crash

/-- A request of `GET /workers`: the rows it has read, and those it has looked up so far. -/
structure ListWorkers where
  rest : List Worker
  entries : List (Worker × Bool)

/-- `files` is what each container's `WORKER_ID_FILE` reads as, `none` where it is missing or
no id. -/
structure Fleet where
  clock : Timestamp
  stores : WorkerStores
  processes : List WorkerProcess
  files : ℕ → Option UUID
  requests : List ListWorkers

inductive FleetAction
  | tick (d : Timestamp)
  | spawn (hostname : String) (pid container : ℕ)
  | process (i : ℕ) (a : WorkerAction)
  | listWorkers
  | isAlive (request : ℕ)

structure FleetSettings where
  workerCapacity : ℕ
  workerHeartbeatIntervalSeconds : ℕ
  heartbeatTtlSeconds : ℕ

def FleetSettings.default : FleetSettings := ⟨10, 5, ApiTesting.heartbeatTtlSeconds⟩

def FleetSettings.registry (x : FleetSettings) : WorkerRegistry := ⟨x.heartbeatTtlSeconds⟩

/-- What a step of a process leaves. -/
structure ProcessEffect where
  stores : WorkerStores
  process : WorkerProcess

/-- A mark that reached Redis renews the key in this round. -/
def WorkerProcess.marking (p : WorkerProcess) (c : WorkerCall) (call : Call) : Round Timestamp :=
  match c with
  | .markAlive => if call.tookEffect then p.round.renew else p.round
  | _ => p.round

section
variable (x : FleetSettings)

/-- `_register`: what it raises ends the process. -/
def registerStep (now : Timestamp) (st : WorkerStores) (p : WorkerProcess) (c : WorkerCall)
    (calls : List WorkerCall) (s : WorkerSession) (call : Call) : ProcessEffect :=
  let r := perform x.registry now st s call c
  ⟨r.stores,
    if r.returned then
      { p with
        workerId := if calls.isEmpty then some r.session.workerId else p.workerId
        phase := if calls.isEmpty then .registered else .registering calls r.session
        round := p.marking c call }
    else { p with phase := .exited }⟩

/-- `_heartbeat_loop`: what it raises is logged, and the loop waits as after a heartbeat. -/
def heartbeatStep (now : Timestamp) (st : WorkerStores) (p : WorkerProcess) (consume : ConsumeLoop)
    (c : WorkerCall) (calls : List WorkerCall) (s : WorkerSession) (call : Call) : ProcessEffect :=
  let r := perform x.registry now st s call c
  let wait := HeartbeatLoop.waiting (now + seconds x.workerHeartbeatIntervalSeconds)
  ⟨r.stores,
    { p with
      phase := .running (if r.returned && !calls.isEmpty then .beating calls r.session else wait) consume
      round := p.marking c call }⟩

/-- `_deregister`: the process ends, whether it raises or not. -/
def deregisterStep (now : Timestamp) (st : WorkerStores) (p : WorkerProcess) (c : WorkerCall)
    (calls : List WorkerCall) (s : WorkerSession) (call : Call) : ProcessEffect :=
  let r := perform x.registry now st s call c
  ⟨r.stores,
    { p with phase := if r.returned && !calls.isEmpty then .deregistering calls r.session else .exited }⟩

/-- A new session; a registration has no worker yet. -/
def WorkerProcess.session (p : WorkerProcess) : WorkerSession := ⟨p.workerId.getD 0, 0, []⟩

def processStep (now : Timestamp) (st : WorkerStores) (p : WorkerProcess) (a : WorkerAction) : Option ProcessEffect :=
  match a, p.phase with
  | .ensureGroup call, .starting =>
    some ⟨st,
      if call.returned then
        { p with
          phase := .registering (WorkerService.register p.hostname p.pid x.workerCapacity ++ [.commit]) p.session
          round := ⟨now, false, 0⟩ }
      else { p with phase := .exited }⟩
  | .registerCall call, .registering (c :: calls) s => some (registerStep x now st p c calls s call)
  | .persist _, .registered => some ⟨st, { p with phase := .running .top .top }⟩
  | .heartbeatTop, .running .top consume =>
    some ⟨st,
      if p.shutdownEvent then { p with phase := .running .done consume }
      else
        { p with
          phase :=
            .running (.beating (WorkerService.heartbeat p.activeTasksCount none none ++ [.commit]) p.session) consume
          round := p.round.next now }⟩
  | .heartbeatCall call, .running (.beating (c :: calls) s) consume =>
    some (heartbeatStep x now st p consume c calls s call)
  | .heartbeatWakes, .running (.waiting until_) consume =>
    if p.shutdownEvent ∨ until_ ≤ now then some ⟨st, { p with phase := .running .top consume }⟩ else none
  | .consumeTop, .running heartbeat .top =>
    some ⟨st, { p with phase := .running heartbeat (if p.shutdownEvent then .done else .consuming) }⟩
  | .consumed entries, .running heartbeat .consuming =>
    if entries ≤ x.workerCapacity then
      some ⟨st,
        if entries = 0 then { p with phase := .running heartbeat .top }
        else { p with phase := .running heartbeat .gathering, activeTasksCount := entries }⟩
    else none
  | .consumeRaised, .running heartbeat .consuming => some ⟨st, { p with phase := .running heartbeat .raised }⟩
  | .gathered, .running heartbeat .gathering =>
    some ⟨st, { p with phase := .running heartbeat .recording, activeTasksCount := 0 }⟩
  | .recorded, .running heartbeat .recording => some ⟨st, { p with phase := .running heartbeat .top }⟩
  -- The task group cancels the loop that is left.
  | .abort, .running _ .raised => some ⟨st, { p with phase := .running .done .raised }⟩
  | .leave, .running .done .done | .leave, .running .done .raised =>
    some ⟨st,
      { p with
        phase :=
          if p.workerId.isNone then .exited
          else .deregistering (WorkerService.deregister ++ [.commit]) p.session }⟩
  | .deregisterCall call, .deregistering (c :: calls) s => some (deregisterStep x now st p c calls s call)
  | .requestShutdown, _ => some ⟨st, { p with shutdownEvent := true }⟩
  | .crash, _ => some ⟨st, { p with phase := .exited }⟩
  | _, _ => none

end

/-- What the file reads as afterwards. -/
def FileWrite.reads (workerId : Option UUID) (before : Option UUID) : FileWrite → Option UUID
  | .written => workerId
  | .unopened => before
  | .broken => none

def Fleet.filesAfter (s : Fleet) (p : WorkerProcess) : WorkerAction → ℕ → Option UUID
  | .persist write =>
    Function.update s.files p.container (write.reads p.workerId (s.files p.container))
  | _ => s.files

/-- A process that has just been started. -/
def WorkerProcess.new (hostname : String) (pid container : ℕ) : WorkerProcess where
  hostname := hostname
  pid := pid
  container := container
  workerId := none
  activeTasksCount := 0
  shutdownEvent := false
  phase := .starting
  round := ⟨0, false, 0⟩

/-- `list_all`: in the order of registration. -/
def WorkerStores.listAll (st : WorkerStores) : List Worker := orderBy Worker.registeredAt st.workers.rows

def fleetStep (x : FleetSettings) (s : Fleet) (a : FleetAction) : Option Fleet :=
  match a with
  | .tick d => some { s with clock := s.clock + d }
  | .spawn hostname pid container =>
    some { s with processes := s.processes ++ [.new hostname pid container] }
  | .process i a =>
    match s.processes[i]? with
    | some p =>
      (processStep x s.clock s.stores p a).map fun e =>
        { s with
          stores := e.stores
          processes := s.processes.set i e.process
          files := s.filesAfter p a }
    | none => none
  | .listWorkers => some { s with requests := s.requests ++ [⟨s.stores.listAll, []⟩] }
  | .isAlive j =>
    match s.requests[j]? with
    | some ⟨w :: rest, entries⟩ =>
      let alive := WorkerRegistry.isAlive w.id s.clock s.stores.redis
      some { s with requests := s.requests.set j ⟨rest, entries ++ [(w, alive)]⟩ }
    | _ => none

/-- Nobody has registered yet. -/
def Fleet.empty : Fleet where
  clock := 0
  stores := ⟨.empty, [], .empty, 0⟩
  processes := []
  files := fun _ => none
  requests := []

/-- What `GET /workers` says at this moment. -/
def Fleet.isAlive (s : Fleet) (workerId : UUID) : Bool := WorkerRegistry.isAlive workerId s.clock s.stores.redis

/-- `is_healthy` of the health check in a container. -/
def Fleet.isHealthy (s : Fleet) (container : ℕ) : Bool := (s.files container).any s.isAlive

end ApiTesting
