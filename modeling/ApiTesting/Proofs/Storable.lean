import ApiTesting.Proofs.PlainText
import ApiTesting.Proofs.Durability

/-! Which outcomes Postgres can store. A value the platform makes up itself always
can; so it comes down to what the target has sent: its status, its headers, the
part of its body that is kept, and the time it took. -/

namespace ApiTesting

open Keyed Fallible Alphabet

/-! The condition on what came back. -/

/-- The part of a body that is kept. -/
def snippet (text : PyStr) : PyStr := text.take responseBodySnippetMaxChars

/-- There is nothing to store where the executor raises. -/
def HttpReply.storable : HttpReply → Bool
  | .response statusCode headers (.ok text) latencyMs =>
    integerStorable statusCode && stringsStorable headers && textStorable (snippet text) &&
      integerStorable latencyMs
  | .response _ _ (.error _) _ => true
  | .timeout latencyMs => integerStorable latencyMs
  | .httpError message latencyMs => textStorable message && integerStorable latencyMs
  | .raised _ => true

namespace Processing

variable (p : Processing)

/-- The chain context the attempt reads. -/
def chainContext (v : TaskView) : Dict String String :=
  v.chainContext p.replies.contextReadAt (p.others.beforeContext p.stores).contexts

/-- The stores an attempt that the rate limiter lets pass is settled in. -/
def settling : Stores :=
  p.others.beforeSettle (p.others.beforeLimit (p.others.beforeContext p.stores))

end Processing

/-- The columns an execution result is copied to. -/
def ExecutionResult.storable (r : ExecutionResult) : Bool :=
  r.statusCode.all integerStorable && integerStorable r.latencyMs &&
    r.responseHeaders.all stringsStorable && (r.responseBody.map snippet).all textStorable

section
variable {lib : Libraries}

end

/-! Two tasks of one run, in one batch. -/

end ApiTesting
