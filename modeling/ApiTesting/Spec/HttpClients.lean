import ApiTesting.Spec.SharedSystem
import Mathlib.Logic.Function.Basic

/-! The HTTP clients of the workers. A `WorkerProcess` has one `httpx.AsyncClient` for all the
requests it sends. The client keeps the cookies its responses set, and adds them to the
requests that come after, whichever run they are of. -/

namespace ApiTesting

open Keyed

/-- The cookies of the client library: what the `Set-Cookie` headers of a response put into a
jar, and the `Cookie` header for a request, where a cookie of the jar goes with it. -/
structure CookieLibrary where
  Jar : Type
  empty : Jar
  extractCookies (jar : Jar) (request : ResolvedRequest) (setCookie : List String) (now : Timestamp) : Jar
  cookieHeader (jar : Jar) (request : ResolvedRequest) (now : Timestamp) : Option String

/-- A `Cookie` header of its own, which the client leaves as it is. -/
def ResolvedRequest.hasCookie (lib : Libraries) (request : ResolvedRequest) : Bool :=
  request.headers.rows.any fun p => lib.lower p.1 = "cookie"

/-- The request as the client sends it. -/
def CookieLibrary.buildRequest (cookies : CookieLibrary) (lib : Libraries) (jar : cookies.Jar)
    (request : ResolvedRequest) (now : Timestamp) : ResolvedRequest :=
  if request.hasCookie lib then request
  else
    match cookies.cookieHeader jar request now with
    | some value => { request with headers := request.headers.put "Cookie" value }
    | none => request

/-- The platform with the jar of each worker; `wire` are the requests as they were sent. -/
structure ClientSystem (cookies : CookieLibrary) where
  system : System
  jars : WorkerId → cookies.Jar
  wire : List SentRequest

/-- `clock` is what the client reads. The headers of a response come in some time before the
attempt goes on with all of it. -/
inductive ClientAction
  | shared (a : SharedAction) (clock : Timestamp)
  | receive (w : WorkerId) (i : ℕ) (setCookie : List String) (clock : Timestamp)

section
variable {cookies : CookieLibrary} (lib : Libraries) (rateLimiter : Bool)

/-- The requests of a step of worker `w`, with its cookies. -/
def ClientSystem.wired (s : ClientSystem cookies) (w : WorkerId) (clock : Timestamp)
    (requests : List SentRequest) : List SentRequest :=
  requests.map fun r => { r with request := cookies.buildRequest lib (s.jars w) r.request clock }

/-- A worker that starts again has a new client. -/
def clientStep (s : ClientSystem cookies) : ClientAction → Option (ClientSystem cookies)
  | .shared (.work (.slot w i a)) clock =>
    (step lib rateLimiter s.system (.slot w i a)).map fun system =>
      { s with
        system
        wire := s.wire ++ s.wired lib w clock (system.sent.drop s.system.sent.length) }
  | .shared (.work (.crash w)) _ =>
    (step lib rateLimiter s.system (.crash w)).map fun system =>
      { s with system, jars := Function.update s.jars w cookies.empty }
  | .shared a _ => (sharedStep lib rateLimiter s.system a).map fun system => { s with system }
  | .receive w i setCookie clock =>
    match (s.system.slotAt? w i).map Slot.phase with
    | some (.executing v chain) =>
      match v.resolve chain with
      | .ok request =>
        some
          { s with
            jars := Function.update s.jars w
              (cookies.extractCookies (s.jars w) request setCookie clock) }
      | .error _ => none
    | _ => none

end

end ApiTesting
