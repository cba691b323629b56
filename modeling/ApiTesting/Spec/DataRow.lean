import ApiTesting.Spec.HttpClients

/-! A data row by itself: what its tasks would send if nothing else was there. Its attempts
read variables that only they merge, and all that comes from outside is an event of the row:
the definition and the data an attempt has read, the answer of the rate limiter, the reply of
the target. -/

namespace ApiTesting

open Keyed

/-- What an attempt has read of its task. -/
structure RowTask where
  taskId : UUID
  definition : ApiRequest
  dataContext : Option (Dict String String)

inductive RowAttempt
  | loaded (task : RowTask)
  | resolved (task : RowTask) (chain : Dict String String)
  | executing (task : RowTask) (chain : Dict String String)

inductive RowEvent
  | load (task : RowTask)
  | readContext
  | send (allowed : Bool)
  | settle (assertions : List Assertion) (reply : HttpReply) (call : Call)

/-- One dictionary updated by the others from left to right. -/
def mergeAll (merged : List (Dict String String)) : Dict String String := merged.foldl Dict.update .empty

/-- The attempts go by the entries they were delivered with; `merged` are the variables of
the row, in the order in which they were merged. -/
structure DataRow where
  attempts : ℕ → Option RowAttempt
  merged : List (Dict String String)
  sent : List SentRequest

namespace DataRow

def start : DataRow := ⟨fun _ => none, [], []⟩

def values (q : DataRow) : Dict String String := mergeAll q.merged

def put (q : DataRow) (entryId : ℕ) (attempt : RowAttempt) : DataRow :=
  { q with attempts := Function.update q.attempts entryId (some attempt) }

end DataRow

namespace RowTask

variable (lib : Libraries) (rateLimiter : Bool) (environment : Dict String String) (t : RowTask)
  (chain : Dict String String)

/-- The data of the task over the variables of the row. -/
def chainContext (values : Dict String String) : Dict String String :=
  match t.dataContext with
  | some row => if row.rows.isEmpty then values else values.update row
  | none => values

def requests : List SentRequest :=
  match resolveRequest chain environment t.definition with
  | .ok request => [⟨t.taskId, request⟩]
  | .error _ => []

/-- Whether the rate limiter lets the attempt go on. -/
def passes (allowed : Bool) : Bool :=
  !rateLimiter ||
    match resolveTemplate chain environment t.definition.url with
    | .error e => e.cls = .undefinedVariable
    | .ok url =>
      match hostForUrl lib url with
      | .error _ => false
      | .ok host => host.isNone || allowed

/-- The variables a successful attempt extracts, where there are some. -/
def extracted (assertions : List Assertion) (reply : HttpReply) : Option (Dict String String) :=
  match execute t.definition.timeoutMs (resolveRequest chain environment t.definition) reply with
  | .error _ => none
  | .ok result =>
    match evaluateResult lib assertions t.definition chain result with
    | .error _ => none
    | .ok ev =>
      match ev.encoded with
      | .error _ => none
      | .ok extracted => if extracted.rows.isEmpty then none else some extracted

end RowTask

namespace DataRow

variable (lib : Libraries) (rateLimiter : Bool) (environment : Dict String String)

def next (q : DataRow) (e : ℕ × RowEvent) : DataRow :=
  match e.2, q.attempts e.1 with
  | .load t, _ => q.put e.1 (.loaded t)
  | .readContext, some (.loaded t) => q.put e.1 (.resolved t (t.chainContext q.values))
  | .send allowed, some (.resolved t chain) =>
    if t.passes lib rateLimiter environment chain allowed then
      { q.put e.1 (.executing t chain) with sent := q.sent ++ t.requests environment chain }
    else q
  | .settle assertions reply call, some (.executing t chain) =>
    match t.extracted lib environment chain assertions reply with
    | some vars => if call.tookEffect then { q with merged := q.merged ++ [vars] } else q
    | none => q
  | _, _ => q

variable {lib rateLimiter environment} {q : DataRow} {n m : ℕ} {t : RowTask} {chain : Dict String String}

theorem put_attempts (attempt : RowAttempt) :
    (q.put n attempt).attempts m = if m = n then some attempt else q.attempts m :=
  Function.update_apply q.attempts n (some attempt) m

theorem next_load : q.next lib rateLimiter environment (n, .load t) = q.put n (.loaded t) := rfl

theorem next_readContext (h : q.attempts n = some (.loaded t)) :
    q.next lib rateLimiter environment (n, .readContext) =
      q.put n (.resolved t (t.chainContext q.values)) := by
  simp only [next, h]

theorem next_send (h : q.attempts n = some (.resolved t chain)) (allowed : Bool) :
    q.next lib rateLimiter environment (n, .send allowed) =
      if t.passes lib rateLimiter environment chain allowed then
        { q.put n (.executing t chain) with sent := q.sent ++ t.requests environment chain }
      else q := by
  simp only [next, h]

theorem next_settle (h : q.attempts n = some (.executing t chain)) (assertions : List Assertion)
    (reply : HttpReply) (call : Call) :
    q.next lib rateLimiter environment (n, .settle assertions reply call) =
      match t.extracted lib environment chain assertions reply with
      | some vars => if call.tookEffect then { q with merged := q.merged ++ [vars] } else q
      | none => q := by
  simp only [next, h]

variable (lib rateLimiter environment)

/-- The row after its events, and nothing else. -/
def after (events : List (ℕ × RowEvent)) : DataRow :=
  events.foldl (next lib rateLimiter environment) .start

end DataRow

/-! The row in the platform. -/

/-- What the step of an attempt is to its row. -/
def Slot.rowEvent (db : Database) (slot : Slot) : SlotAction → Option RowEvent
  | .load =>
    match slot.phase with
    | .delivered => (loadTask db slot.entry.taskId).toOption.map fun v =>
        .load ⟨v.testTask.id, v.apiRequest, v.testTask.dataContext⟩
    | _ => none
  | .readContext _ =>
    match slot.phase with
    | .loaded _ => some .readContext
    | _ => none
  | .send allowed _ _ =>
    match slot.phase with
    | .resolved _ _ => some (.send allowed)
    | _ => none
  | .settle reply _ call _ =>
    match slot.phase with
    | .executing v _ => some (.settle (db.assertionsOf v.apiRequest.id) reply call)
    | _ => none
  | .callRaised => none

namespace CreatedRun

variable (c : CreatedRun) (row : Option ℕ)

/-- The events of the row, each with the entry of its attempt. -/
def rowEvents (s : System) : SharedAction → List (ℕ × RowEvent)
  | .work (.slot w i a) =>
    match s.slotAt? w i with
    | some slot =>
      if slot.entry.taskId ∈ c.rowTasks row then
        ((slot.rowEvent s.stores.db a).map (slot.entry.entryId, ·)).toList
      else []
    | none => []
  | _ => []

/-- A step of the clients is an event of a row where it is a step of the platform. -/
def clientEvents {cookies : CookieLibrary} (s : ClientSystem cookies) : ClientAction → List (ℕ × RowEvent)
  | .shared a _ => c.rowEvents row s.system a
  | .receive _ _ _ _ => []

/-- The requests handed to the clients for tasks of the row. -/
def sentFor (s : System) : List SentRequest :=
  s.sent.filter fun q => q.testTaskId ∈ c.rowTasks row

/-- These requests as they were sent. -/
def wireFor {cookies : CookieLibrary} (s : ClientSystem cookies) : List SentRequest :=
  s.wire.filter fun q => q.testTaskId ∈ c.rowTasks row

/-- The variables its successful attempts have merged, in order. -/
def mergedFor (s : System) : List (Dict String String) :=
  (s.published.filter fun p => p.1 ∈ c.rowTasks row).map Prod.snd

end CreatedRun

end ApiTesting
