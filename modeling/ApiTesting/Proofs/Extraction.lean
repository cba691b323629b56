import ApiTesting.Proofs.Contexts
import ApiTesting.Proofs.Storable

/-! What the rules of a request extract, and what an attempt leaves of it in the run context.
The extractor keeps two dictionaries, what it has extracted and what a rule can read; the
second is the context with the first over it, so one of them says it all. The context is
written once, when everything about the attempt has succeeded. -/

namespace ApiTesting

open Keyed Fallible

section
variable (lib : Libraries)

/-- The latest value that was saved, or else the one of the context. -/
def latest (chain : Dict String String) (saved : Dict String PyStr) (name : String) : Option PyStr :=
  (saved.lookup name).or ((chain.lookup name).map PyStr.ofString)

end

section
variable {lib : Libraries} {body : Json} {chain : Dict String String}

end

/-! One attempt. -/

namespace Processing

variable (lib : Libraries) (rateLimiter : Bool) (t : UUID) (w : WorkerId) (p : Processing)

/-- What the rate limiter says, and the stores after it. -/
def limited (v : TaskView) : Except Exn Unit × Stores :=
  passRateLimit lib rateLimiter v (p.chainContext v) p.replies.allowed p.replies.limitedAt
    p.replies.limiterCall (p.others.beforeLimit (p.others.beforeContext p.stores))

def run : Except Exn TaskOutcome × Stores := processTask lib rateLimiter t w p.replies p.others p.stores

/-- The run context as the other processes alone have left it when the attempt ends. -/
def left : RunContext :=
  match loadTask p.stores.db t with
  | .error _ => p.stores.contexts
  | .ok v =>
    match (p.limited lib rateLimiter v).1 with
    | .error _ => (p.others.beforeLimit (p.others.beforeContext p.stores)).contexts
    | .ok () => p.settling.contexts

/-- The result the executor gives the attempt. -/
def result (v : TaskView) : Except Exn ExecutionResult :=
  execute v.apiRequest.timeoutMs (v.resolve (p.chainContext v)) p.replies.reply

/-- The context with `vars` written to the hash of the attempt, and its time to live renewed. -/
def merged (v : TaskView) (vars : Dict String String) : RunContext :=
  ((p.left lib rateLimiter t).hset p.replies.settledAt v.contextKey vars).expire p.replies.settledAt v.contextKey

end Processing

section
variable {lib : Libraries} {rateLimiter : Bool} {t : UUID} {w : WorkerId} {p : Processing}

namespace Processing

section
variable {v : TaskView} (hload : loadTask p.stores.db t = .ok v)
include hload

end

end Processing

end

end ApiTesting
