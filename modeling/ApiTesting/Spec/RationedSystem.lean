import ApiTesting.Spec.RateLimiter
import ApiTesting.Spec.System

/-! The platform with its rate limiter: what `System` leaves to the environment at a send, the
answer of `try_acquire`, is here what the script makes of the bucket of the host, which all
workers share. The buckets go by the clock of Redis, and every action by the same one. -/

namespace ApiTesting

open Keyed

section
variable (lib : Libraries)

/-- The host `_check_rate_limit` asks for, where it gets that far. -/
def TaskView.limitedHost (v : TaskView) (chain : Dict String String) : Option String :=
  match resolveTemplate chain v.testRun.environmentVariables v.apiRequest.url with
  | .error _ => none
  | .ok url =>
    match hostForUrl lib url with
    | .error _ => none
    | .ok host => host

/-- The host a request goes to. -/
def SentRequest.host (r : SentRequest) : Option String :=
  match hostForUrl lib r.request.url with
  | .error _ => none
  | .ok host => host

end

/-- A request that an attempt was let through with, when, and the retry count the attempt has
read. The request itself leaves some time after that. -/
structure Release where
  at_ : Timestamp
  retryCount : ℕ
  sent : SentRequest

/-- `calls` are the calls of `try_acquire` with their answers, `releases` the requests that were
let through. -/
structure Rationed where
  system : System
  clock : Timestamp
  buckets : Buckets
  calls : List (AcquireCall × Bool)
  releases : List Release

/-- `acquireRaised` is a `try_acquire` that raises after its script has run. -/
inductive RationedAction
  | tick (d : Timestamp)
  | act (a : Action)
  | acquireRaised (w : WorkerId) (i : ℕ)

namespace Rationed

section
variable (lib : Libraries) (limiter : Option RateLimiter)

/-- The call of `try_acquire` an attempt is about to make. -/
def call? (s : Rationed) (w : WorkerId) (i : ℕ) : Option AcquireCall :=
  match limiter, (s.system.slotAt? w i).map Slot.phase with
  | some limiter, some (.resolved v chain) =>
    (v.limitedHost lib chain).map fun host => ⟨limiter, host, 1, s.clock⟩
  | _, _ => none

/-- The script on the bucket of the call. -/
def serveCall (s : Rationed) (c : AcquireCall) : Bool × Buckets :=
  c.limiter.tryAcquire c.host c.tokens c.at_ s.buckets

def afterCall (s : Rationed) (c : AcquireCall) : Rationed :=
  { s with buckets := (s.serveCall c).2, calls := s.calls ++ [(c, (s.serveCall c).1)] }

/-- The requests a step has let through. -/
def newReleases (s : Rationed) (system : System) (v : TaskView) : List Release :=
  (system.sent.drop s.system.sent.length).map fun r => ⟨s.clock, v.testTask.retryCount, r⟩

def releasesBy (s : Rationed) (system : System) : Action → List Release
  | .slot w i (.send _ _ _) =>
    match (s.system.slotAt? w i).map Slot.phase with
    | some (.resolved v _) => s.newReleases system v
    | _ => []
  | _ => []

/-- The platform after an action, which takes no time. -/
def move (s : Rationed) (a : Action) : Option Rationed :=
  (step lib limiter.isSome s.system a).map fun system =>
    { s with system, releases := s.releases ++ s.releasesBy system a }

end

end Rationed

/-- An attempt is let through in the step in which the script answers it. -/
def rationedStep (lib : Libraries) (limiter : Option RateLimiter) (s : Rationed) : RationedAction → Option Rationed
  | .tick d => some { s with clock := s.clock + d }
  | .act (.slot w i (.send allowed now call)) =>
    match s.call? lib limiter w i with
    | none => s.move lib limiter (.slot w i (.send allowed now call))
    | some c =>
      if allowed = (s.serveCall c).1 then (s.afterCall c).move lib limiter (.slot w i (.send allowed now call))
      else none
  | .act a => s.move lib limiter a
  | .acquireRaised w i =>
    match s.call? lib limiter w i with
    | none => none
    | some c => (s.afterCall c).move lib limiter (.slot w i .callRaised)

/-- `rate_limit_capacity` and `rate_limit_refill_per_second` as they are set by default. -/
def defaultLimiter : RateLimiter := ⟨10, 5⟩

/-- A platform that has let nothing through, with no bucket in Redis. -/
def System.rationed (s : System) (clock : Timestamp) : Rationed where
  system := s
  clock := clock
  buckets := .empty
  calls := []
  releases := []

end ApiTesting
