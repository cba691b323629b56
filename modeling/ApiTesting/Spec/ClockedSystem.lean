import ApiTesting.Spec.System
import Mathlib.Algebra.GroupWithZero.Nat
import Mathlib.Logic.Function.Basic

/-! The platform against a clock. An action takes place at the time the clock shows, and
between two actions time passes: a request is under way for as long as its target makes it
wait, and the worker's own part of a cycle, the write and the ack with it, is short. The
client bounds each wait of a request by its `timeout_ms`, and not how many there are. -/

namespace ApiTesting

/-- `DEFAULT_RECLAIM_MIN_IDLE_MS`. -/
def defaultReclaimMinIdle : Timestamp := 360000 * 1000

/-- The largest `timeout_ms` the API accepts. -/
def timeoutCeiling : Timestamp := 300000 * 1000

/-- What a worker takes at most for its own part of a cycle. -/
def overheadCeiling : Timestamp := 60000 * 1000

/-- One iteration of `_consume_loop`: when it has begun, when `gather` was through with it,
and for each entry when its request was sent and the waits of it, one after the other. -/
structure Cycle where
  consumedAt : Timestamp
  gatheredAt : Timestamp
  loading : Timestamp
  writing : Timestamp
  sentAt : ℕ → Timestamp
  waits : ℕ → List Timestamp

/-- What the environment decides about time: at a consume how long the worker's own steps
take before and after `gather`, at a send the waits of the request. -/
structure Timing where
  loading : Timestamp
  writing : Timestamp
  waits : List Timestamp

def Timing.none : Timing := ⟨0, 0, []⟩

/-- By when an entry of the batch is past its phase. -/
def Cycle.due (c : Cycle) (i : ℕ) : Phase → Option Timestamp
  | .executing _ _ => some (c.consumedAt + c.loading + (c.waits i).sum)
  | .returned _ => .none
  | _ => some (c.consumedAt + c.loading)

/-- Whether the worker may still be where it is at the given time; `gather` returns with the
last of its entries. -/
def WorkerState.mayLast (c : Cycle) (until_ : Timestamp) : WorkerState → Bool
  | .idle => true
  | .gathering slots =>
    (slots.any fun slot => slot.result?.isNone) &&
      slots.zipIdx.all fun p => (c.due p.2 p.1.phase).all fun due => until_ ≤ due
  | .writing _ => until_ ≤ c.gatheredAt + c.writing
  | .acking _ => until_ ≤ c.gatheredAt + c.writing

inductive ClockedAction
  | tick (d : Timestamp)
  | act (a : Action) (timing : Timing)

/-- The clock an action reads. -/
def Action.now? : Action → Option Timestamp
  | .consume _ _ now => some now
  | .slot _ _ (.readContext now) => some now
  | .slot _ _ (.send _ now _) => some now
  | .slot _ _ (.settle _ now _ _) => some now
  | .write _ now _ => some now
  | .retryRange now _ => some now
  | .retryReschedule now _ => some now
  | .reclaim _ _ now => some now
  | _ => none

/-- A worker has the entry in hand. -/
def System.holds (s : System) (entryId : ℕ) : Bool := s.workers.any fun x => entryId ∈ x.entryIds

/-- `seized` are the entries a sweep has claimed out of the hands of a worker, and `copies`
the entries it has put on the stream in their place. -/
structure Clocked where
  system : System
  clock : Timestamp
  cycles : WorkerId → Cycle
  seized : List ℕ
  copies : List ℕ

namespace Clocked

/-- What the worker, the client and the target may do at this time. -/
def permits (s : Clocked) (timing : Timing) : Action → Bool
  | .consume _ _ _ => timing.loading + timing.writing ≤ overheadCeiling
  | .slot w i (.send _ _ _) =>
    match (s.system.slotAt? w i).map Slot.phase with
    | some (.resolved v chain) =>
      if (v.requests chain).isEmpty then timing.waits.isEmpty
      else timing.waits.all fun d => d ≤ v.apiRequest.timeoutMs * 1000
    | _ => false
  | .slot w i (.settle _ _ _ _) => (s.cycles w).sentAt i + ((s.cycles w).waits i).sum ≤ s.clock
  | .reclaim minIdle _ _ => minIdle = defaultReclaimMinIdle
  | _ => true

def cyclesAfter (s : Clocked) (timing : Timing) : Action → WorkerId → Cycle
  | .consume w _ _ =>
    Function.update s.cycles w
      { consumedAt := s.clock, gatheredAt := s.clock, loading := timing.loading,
        writing := timing.writing, sentAt := fun _ => s.clock, waits := fun _ => [] }
  | .slot w i (.send _ _ _) =>
    Function.update s.cycles w
      { s.cycles w with
        sentAt := Function.update (s.cycles w).sentAt i s.clock
        waits := Function.update (s.cycles w).waits i timing.waits }
  | .gather w => Function.update s.cycles w { s.cycles w with gatheredAt := s.clock }
  | _ => s.cycles

def seizedBy (s : Clocked) : Action → List ℕ
  | .reclaim minIdle count now =>
    ((s.system.stream.stale minIdle count now).map StreamEntry.entryId).filter s.system.holds
  | _ => []

def copiesBy (s : Clocked) : Action → List ℕ
  | .reclaimEnqueue call =>
    match s.system.reclaimSweeper with
    | .claimed (e :: _) =>
      if call.tookEffect ∧ (e.entryId ∈ s.seized ∨ e.entryId ∈ s.copies) then
        [s.system.stream.log.length]
      else []
    | _ => []
  | _ => []

end Clocked

/-- Time passes until the given time only as long as every worker may last until then. -/
def Clocked.mayPass (s : Clocked) (until_ : Timestamp) : Bool :=
  s.system.workers.zipIdx.all fun p => p.1.mayLast (s.cycles p.2) until_

def clockedStep (lib : Libraries) (rateLimiter : Bool) (s : Clocked) : ClockedAction → Option Clocked
  | .tick d => if s.mayPass (s.clock + d) then some { s with clock := s.clock + d } else none
  | .act a timing =>
    if a.now?.all (· = s.clock) ∧ s.permits timing a then
      (step lib rateLimiter s.system a).map fun system =>
        { system
          clock := s.clock
          cycles := s.cyclesAfter timing a
          seized := s.seized ++ s.seizedBy a
          copies := s.copies ++ s.copiesBy a }
    else none

/-- The clock starts with no worker in a cycle. -/
def System.clocked (s : System) (clock : Timestamp) : Clocked where
  system := s
  clock := clock
  cycles := fun _ => ⟨clock, clock, 0, 0, fun _ => clock, fun _ => []⟩
  seized := []
  copies := []

/-- `timeout_ms` is in the range the API accepts. -/
def System.TimeoutsInRange (s : System) : Prop :=
  ∀ r ∈ s.stores.db.apiRequests.rows, 100 ≤ r.timeoutMs ∧ r.timeoutMs ≤ 300000

end ApiTesting
