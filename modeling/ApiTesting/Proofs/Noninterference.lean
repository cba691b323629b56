import ApiTesting.Proofs.RowFollowing
import ApiTesting.Proofs.RowRecords

/-! Data rows and runs do not interfere, but through the cookies of the clients: two
executions that a row cannot tell apart hand the same requests for it to the clients, which
send them as they are where no cookie goes with them. -/

namespace ApiTesting

open Keyed Machine

section
variable {lib : Libraries} {rateLimiter : Bool} {cookies : CookieLibrary} {c : CreatedRun} {row : Option ℕ}
  {s s' : ClientSystem cookies}

/-- Where the step sends a request of the row, no cookie in the jar of the worker goes with it,
or the request has a `Cookie` header of its own. -/
def CreatedRun.Cookieless (c : CreatedRun) (row : Option ℕ) (lib : Libraries) (s : ClientSystem cookies)
    (a : ClientAction) : Prop :=
  ∀ w i allowed now call clock slot v chain request,
    a = .shared (.work (.slot w i (.send allowed now call))) clock → s.system.slotAt? w i = some slot →
      slot.phase = .resolved v chain → slot.entry.taskId ∈ c.rowTasks row → v.resolve chain = .ok request →
        cookies.cookieHeader (s.jars w) request clock = none ∨ request.hasCookie lib

theorem buildRequest_eq {jar : cookies.Jar} {request : ResolvedRequest} {clock : Timestamp}
    (h : cookies.cookieHeader jar request clock = none ∨ request.hasCookie lib) :
    cookies.buildRequest lib jar request clock = request := by
  unfold CookieLibrary.buildRequest
  rcases h with h | h
  · rw [h]
    split <;> rfl
  · rw [if_pos h]

theorem mem_sent_of_slotMove {w : WorkerId} {st : Stores} {slot : Slot} {sa : SlotAction} {e : SlotEffect}
    (hm : SlotMove lib rateLimiter w st slot sa e) {r : SentRequest} (hr : r ∈ e.sent) :
    ∃ v chain allowed now call, sa = .send allowed now call ∧ slot.phase = .resolved v chain ∧
      v.resolve chain = .ok r.request ∧ r.testTaskId = v.testTask.id := by
  cases hm with
  | @sent v chain allowed now call st' hph hpass =>
    refine ⟨v, chain, allowed, now, call, rfl, hph, ?_⟩
    dsimp only [TaskView.requests] at hr
    split at hr
    · rename_i request hresolve
      rw [List.mem_singleton.1 hr]
      exact ⟨hresolve, rfl⟩
    · cases hr
  | _ => cases hr

/-- What a client sends of the row is what it was handed. -/
theorem wireFor_of_slot {w : WorkerId} {i : ℕ} {sa : SlotAction} {clock : Timestamp} {system : System}
    (hwire : c.wireFor row s = c.sentFor row s.system)
    (hsound : ∀ {w i slot}, s.system.slotAt? w i = some slot → slot.sound)
    (hc : c.Cookieless row lib s (.shared (.work (.slot w i sa)) clock))
    (hstep : step lib rateLimiter s.system (.slot w i sa) = some system) :
    c.wireFor row { s with
      system
      wire := s.wire ++ s.wired lib w clock (system.sent.drop s.system.sent.length) } =
      c.sentFor row system := by
  have hm := move_of_step hstep
  cases hm with
  | @slot w i sa slots slot e hw hi hmove =>
    have hat := slotAt?_eq hw hi
    have hown : ∀ r ∈ e.sent.filter (fun r => r.testTaskId ∈ c.rowTasks row),
        { r with request := cookies.buildRequest lib (s.jars w) r.request clock } = r := by
      intro r hr
      obtain ⟨hr, htask⟩ := List.mem_filter.1 hr
      obtain ⟨v, chain, allowed, now, call, rfl, hph, hresolve, hid⟩ := mem_sent_of_slotMove hmove hr
      have hentry : v.testTask.id = slot.entry.taskId :=
        hsound hat (.running v) (by simp [Slot.attempts, hph, Phase.attempts])
      have hmem : slot.entry.taskId ∈ c.rowTasks row := by
        rw [← hentry, ← hid]
        exact of_decide_eq_true htask
      rw [buildRequest_eq (hc w i allowed now call clock slot v chain r.request rfl hat hph hmem hresolve)]
    rw [sentFor_append c row (s := s.system) rfl, ← hwire, CreatedRun.wireFor, CreatedRun.wireFor,
      List.filter_append]
    congr 1
    simp only [List.drop_left, ClientSystem.wired, List.filter_map]
    exact (List.map_congr_left hown).trans (List.map_id _)

/-- Only attempts hand requests to a client. -/
theorem sent_of_shared {s s' : System} {a : SharedAction} (ha : ∀ w i sa, a ≠ .work (.slot w i sa))
    (hstep : sharedStep lib rateLimiter s a = some s') : s'.sent = s.sent := by
  cases a with
  | work a => exact (effect_of_move (move_of_step hstep) fun w i sa he => ha w i sa (by rw [he])).1
  | api db enqueued =>
    cases hstep
    rfl

/-- The row by itself where the platform has it, and its requests on the wire. -/
structure Sends (c : CreatedRun) (row : Option ℕ) (s : ClientSystem cookies) (q : DataRow) : Prop where
  follows : Follows c row s.system q
  wire : c.wireFor row s = c.sentFor row s.system

/-- What the platform has to keep, whichever action the step is. -/
def CreatedRun.ClientKeeps (c : CreatedRun) (s : ClientSystem cookies) : ClientAction → Prop
  | .shared a _ => c.Keeps s.system a
  | .receive _ _ _ _ => True

theorem Sends.step {a : ClientAction} {q : DataRow} (h : Sends c row s q) (hk : c.ClientKeeps s a)
    (hc : c.Cookieless row lib s a) (hstep : clientStep lib rateLimiter s a = some s') :
    Sends c row s' ((c.clientEvents row s a).foldl (DataRow.next lib rateLimiter c.environment) q) := by
  -- a step of the platform that hands nothing to a client
  have hquiet : ∀ {a : SharedAction} {system : System} {jars : WorkerId → cookies.Jar},
      (∀ w i sa, a ≠ .work (.slot w i sa)) → c.Keeps s.system a →
      sharedStep lib rateLimiter s.system a = some system →
      Sends c row { s with system, jars }
        ((c.rowEvents row s.system a).foldl (DataRow.next lib rateLimiter c.environment) q) := by
    intro a system jars ha hk hstep
    refine ⟨h.follows.step hk hstep, ?_⟩
    rw [CreatedRun.sentFor, sent_of_shared ha hstep]
    exact h.wire
  unfold clientStep at hstep
  split at hstep
  · rename_i w i sa clock
    obtain ⟨system, hsystem, rfl⟩ := Option.map_eq_some_iff.1 hstep
    exact ⟨h.follows.step (a := .work (.slot w i sa)) hk hsystem,
      wireFor_of_slot h.wire h.follows.tracked.sound hc hsystem⟩
  · rename_i w clock
    obtain ⟨system, hsystem, rfl⟩ := Option.map_eq_some_iff.1 hstep
    exact hquiet (a := .work (.crash w)) (by rintro _ _ _ ⟨⟩) hk hsystem
  · rename_i a clock hslot hcrash
    obtain ⟨system, hsystem, rfl⟩ := Option.map_eq_some_iff.1 hstep
    exact hquiet (fun w i sa he => hslot w i sa (by rw [he])) hk hsystem
  · split at hstep
    · split at hstep
      · cases hstep
        exact ⟨h.follows, h.wire⟩
      · cases hstep
    · cases hstep

end

/-- Any number of steps of the workers and their clients, the sweepers and the API, from before
the run was there. -/
structure Execution (lib : Libraries) (cookies : CookieLibrary) (rateLimiter : Bool) (c : CreatedRun) where
  start : ClientSystem cookies
  actions : List ClientAction
  final : ClientSystem cookies
  unseen : c.Unseen start.system
  noWire : start.wire = []
  run : Run (clientStep lib rateLimiter) start actions final
  keeps : Each (clientStep lib rateLimiter) c.ClientKeeps start actions

namespace Execution

variable {lib : Libraries} {cookies : CookieLibrary} {rateLimiter : Bool} {c : CreatedRun}

/-- All that a data row takes part in. -/
def record (x : Execution lib cookies rateLimiter c) (row : Option ℕ) : List (ℕ × RowEvent) :=
  trace (clientStep lib rateLimiter) (c.clientEvents row) x.start x.actions

/-- No request of the row goes out with a cookie of the jar. -/
def Cookieless (x : Execution lib cookies rateLimiter c) (row : Option ℕ) : Prop :=
  Each (clientStep lib rateLimiter) (c.Cookieless row lib) x.start x.actions

/-- The context of the row holds what its successful attempts have merged, one after the other;
each of its requests is the definition and the data an attempt has read, resolved over these
variables as they were and over the environment at the creation of the run; and what is merged
and sent for the row is a function of its record, in which nothing is said of the other rows, of
the other runs or of the environment variables. -/
structure Isolated (x : Execution lib cookies rateLimiter c) (row : Option ℕ) : Prop where
  values : x.final.system.stores.contexts.valuesAt (RunContext.contextKey c.run.id row) =
    mergeAll (c.mergedFor row x.final.system)
  resolved : ∀ r ∈ c.wireFor row x.final, ∃ t before, Loaded (x.record row) t ∧
    before <+: c.mergedFor row x.final.system ∧
      r ∈ t.requests c.environment (t.chainContext (mergeAll before))
  merged : c.mergedFor row x.final.system =
    (DataRow.after lib rateLimiter c.environment (x.record row)).merged
  sent : c.wireFor row x.final = (DataRow.after lib rateLimiter c.environment (x.record row)).sent

theorem sends (x : Execution lib cookies rateLimiter c) {row : Option ℕ} (h : x.Cookieless row) :
    Sends c row x.final (DataRow.after lib rateLimiter c.environment (x.record row)) := by
  have hstart : Sends c row x.start .start := by
    refine ⟨x.unseen.follows row, ?_⟩
    rw [CreatedRun.wireFor, x.noWire, CreatedRun.sentFor, x.unseen.noRequest]
  exact x.run.simulates (R := Sends c row) (x.keeps.and h) hstart fun _ _ _ _ hs hp hstep =>
    hs.step hp.1 hp.2 hstep

theorem wireFor_eq (x : Execution lib cookies rateLimiter c) {row : Option ℕ} (h : x.Cookieless row) :
    c.wireFor row x.final = (DataRow.after lib rateLimiter c.environment (x.record row)).sent :=
  (x.sends h).wire.trans (x.sends h).follows.sent

theorem isolated (x : Execution lib cookies rateLimiter c) {row : Option ℕ} (h : x.Cookieless row) :
    x.Isolated row where
  values := by
    rw [(x.sends h).follows.values, (x.sends h).follows.merged]
    rfl
  resolved := by
    intro r hr
    have hexplained : Explained c.environment (x.record row)
        (DataRow.after lib rateLimiter c.environment (x.record row)) := explained_after _
    rw [x.wireFor_eq h] at hr
    obtain ⟨t, chain, ht, ⟨before, hp, rfl⟩, hmem⟩ := hexplained.sent r hr
    exact ⟨t, before, ht, (x.sends h).follows.merged ▸ hp, hmem⟩
  merged := (x.sends h).follows.merged
  sent := x.wireFor_eq h

end Execution

/-- Data rows and runs do not interfere, as far as no cookies go with their requests: and two
executions with one record for the row, up to the names of its deliveries, send the same. -/
theorem rows_do_not_interfere {lib : Libraries} {cookies : CookieLibrary} {rateLimiter : Bool}
    {c : CreatedRun} (x : Execution lib cookies rateLimiter c) {row : Option ℕ} (h : x.Cookieless row) :
    x.Isolated row ∧
      ∀ (c' : CreatedRun) (y : Execution lib cookies rateLimiter c') (f : ℕ → ℕ), y.Cookieless row →
        f.Injective → c'.environment = c.environment →
          y.record row = (x.record row).map (Prod.map f id) →
            c'.wireFor row y.final = c.wireFor row x.final := by
  refine ⟨x.isolated h, fun c' y f hy hf henv hrecord => ?_⟩
  have hsent := y.wireFor_eq hy
  rw [henv, hrecord] at hsent
  rw [hsent, x.wireFor_eq h]
  exact (renamed_after hf (x.record row)).sent

/-- A first step that logs in the user of the row, and a second that uses the token it gets. -/
def rowRequests : List ApiRequest :=
  [{ plainRequest 3 with
      url := "https://\x7b\x7bhost\x7d\x7d/login?user=\x7b\x7buser\x7d\x7d"
      extractRules := [.jsonPath "$" "token"] },
    { plainRequest 4 with
      url := "https://\x7b\x7bhost\x7d\x7d/me"
      headers := Dict.put .empty "X-Token" "\x7b\x7btoken\x7d\x7d"
      orderIndex := 1 }]

def rowDatabase (host : String) : Database :=
  { Database.empty with
    users := Table.empty.set ⟨1, "ann@example.com"⟩
    projects := Table.empty.set ⟨2, 0, "Billing", none, 1, 0⟩
    collections := Table.empty.set ⟨0, 2, "Smoke", none, 0⟩
    apiRequests := rowRequests.foldl Table.set .empty
    environmentVariables := Table.empty.set ⟨7, 2, "host", host, false, 0, 0⟩ }

def userRows (user : String) : List (Dict String String) :=
  [Dict.put .empty "user" "ann", Dict.put .empty "user" user]

/-- A run for Ann and somebody else. -/
def twoRows (user : String) : CreatedRun where
  session := World.session ⟨rowDatabase "api.test", .empty, 8⟩ ⟨0, fun _ => .ok, .ok, .table⟩
  run :=
    { startedRun 8 4 with
      initiatedBy := 1
      config := Dict.put .empty "environment_variables" (Dict.put .empty "host" "api.test") }
  tasks := TestTaskRepository.assignIds 9 (pendingTasks 8 rowRequests (rowsOf (some (userRows user))))
  id_lt := by decide
  created := ⟨0, 1, .manual, some (userRows user), _, rfl⟩

/-- The transaction that creates the run, over a database that may have been edited since. -/
def twoRowsDb (host user : String) : Database :=
  (⟨.request, .ready, [(twoRows user).run], (twoRows user).tasks⟩ : Transaction).view (rowDatabase host)

theorem kept_twoRowsDb (host user : String) : (twoRows user).Kept (twoRowsDb host user) := by
  refine CreatedRun.Kept.view ⟨by rintro _ ⟨⟩, by rintro _ ⟨⟩, by rintro _ ⟨⟩⟩ ?_ fun t ht => .inl ht
  intro r hr
  obtain rfl := List.mem_singleton.1 hr
  exact ⟨(twoRows user).id_lt, fun _ => rfl⟩

/-- A target with one cookie, which has no attributes: a new value replaces the old one. -/
def plainCookies : CookieLibrary where
  Jar := Option String
  empty := none
  extractCookies := fun jar _ setCookie _ => setCookie.getLast?.or jar
  cookieHeader := fun jar _ _ => jar

/-- Steps of the platform, all at one time. -/
def steps (as : List Action) : List ClientAction := as.map fun a => .shared (.work a) 0

/-- The response to a login, with a cookie if there is one. -/
def receives (i : ℕ) (cookie : Option String) : List ClientAction :=
  cookie.toList.map fun value => .receive 0 i [value] 0

/-- One row after the other. The login of the second row sets a cookie. -/
def inOrder : List ClientAction :=
  [.shared (.api (twoRowsDb "api.test" "bob") [9, 10, 11, 12]) 0] ++
    steps ([.consume 0 4 0] ++ attempt 0 0 (tokenReply "t1") 0 ++ attempt 0 1 okReply 0 ++
      (attempt 0 2 (tokenReply "t2") 0).take 3) ++ receives 2 (some "session=bob") ++
    steps ((attempt 0 2 (tokenReply "t2") 0).drop 3 ++ attempt 0 3 okReply 0)

/-- The other row in between, its entry first, and the host edited on the way. -/
def interleaved (cookie : Option String) : List ClientAction :=
  [.shared (.api (twoRowsDb "api.test" "eve") [11, 9, 10]) 0] ++
    steps [.consume 0 3 0, .slot 0 0 .load, .slot 0 1 .load] ++
    [.shared (.api (twoRowsDb "other.test" "eve") [12]) 0] ++
    steps [.slot 0 0 (.readContext 0), .slot 0 0 (.send true 0 .ok)] ++ receives 0 cookie ++
    steps ([.slot 0 0 (.settle (tokenReply "t3") 0 .ok .ok)] ++ (attempt 0 1 (tokenReply "t1") 0).tail ++
      attempt 0 2 okReply 0)

theorem unseen_twoRows (user : String) : (twoRows user).Unseen (launch (rowDatabase "api.test") 1) where
  kept := ⟨by rintro _ ⟨⟩, by rintro _ ⟨⟩, by rintro _ ⟨⟩⟩
  idle := fun _ hx => List.eq_of_mem_replicate hx
  noRequest := rfl
  noVariable := rfl
  noContext := fun _ => rfl

/-- A worker whose client has no cookies yet. -/
def oneClient : ClientSystem plainCookies := ⟨launch (rowDatabase "api.test") 1, fun _ => none, []⟩

abbrev quotedStep : ClientSystem plainCookies → ClientAction → Option (ClientSystem plainCookies) :=
  clientStep quotedLibraries false

/-- `ClientKeeps`, where the commits are known to keep the run. -/
theorem each_clientKeeps {c : CreatedRun} {actions : List ClientAction}
    (hapi : ∀ db enqueued clock, .shared (.api db enqueued) clock ∈ actions → c.Kept db)
    (hlive : eachB quotedStep
      (fun s a => match a with
        | .shared (.work a) _ => usesLive s.system a
        | _ => true) oneClient actions = true) :
    Each quotedStep c.ClientKeeps oneClient actions := by
  have hkept : Each quotedStep
      (fun _ a => ∀ db enqueued clock, a = .shared (.api db enqueued) clock → c.Kept db) oneClient actions :=
    each_of_mem fun a ha s db enqueued clock he => hapi db enqueued clock (he ▸ ha)
  refine (hkept.and (each_of_eachB (fun _ _ h => h) hlive)).mono ?_
  rintro s (⟨a | ⟨db, enqueued⟩, clock⟩ | _) ⟨hkept, hlive⟩
  · exact hlive
  · exact hkept db enqueued clock rfl
  · trivial

theorem not_mem_steps {as : List Action} {db : Database} {enqueued : List UUID} {clock : Timestamp} :
    ClientAction.shared (.api db enqueued) clock ∉ steps as := by
  simp [steps]

theorem not_mem_receives {i : ℕ} {cookie : Option String} {a : SharedAction} {clock : Timestamp} :
    ClientAction.shared a clock ∉ receives i cookie := by
  simp [receives]

def inOrderExecution : Execution quotedLibraries plainCookies false (twoRows "bob") where
  start := oneClient
  actions := inOrder
  final := final quotedStep oneClient inOrder
  unseen := unseen_twoRows "bob"
  noWire := rfl
  run := run_final _ (by rfl)
  keeps := by
    refine each_clientKeeps ?_ (by rfl)
    intro db enqueued clock h
    simp only [inOrder, List.mem_append, List.mem_singleton, not_mem_steps, not_mem_receives, or_false] at h
    cases h
    exact kept_twoRowsDb "api.test" "bob"

/-- What is kept does not depend on the cookie. -/
theorem kept_interleaved (cookie : Option String) {db : Database} {enqueued : List UUID} {clock : Timestamp}
    (h : ClientAction.shared (.api db enqueued) clock ∈ interleaved cookie) : (twoRows "eve").Kept db := by
  simp only [interleaved, List.mem_append, List.mem_singleton, not_mem_steps, not_mem_receives, or_false] at h
  rcases h with h | h
  · cases h
    exact kept_twoRowsDb "api.test" "eve"
  · cases h
    exact kept_twoRowsDb "other.test" "eve"

def interleavedExecution : Execution quotedLibraries plainCookies false (twoRows "eve") where
  start := oneClient
  actions := interleaved none
  final := final quotedStep oneClient (interleaved none)
  unseen := unseen_twoRows "eve"
  noWire := rfl
  run := run_final _ (by rfl)
  keeps := each_clientKeeps (fun _ _ _ => kept_interleaved none) (by rfl)

/-- `Cookieless`, where it can be evaluated. -/
def cookielessB (c : CreatedRun) (row : Option ℕ) (s : ClientSystem plainCookies) (a : ClientAction) : Bool :=
  match a with
  | .shared (.work (.slot w i (.send _ _ _))) _ =>
    match s.system.slotAt? w i with
    | some slot => slot.entry.taskId ∉ c.rowTasks row || Option.isNone (s.jars w)
    | none => true
  | _ => true

theorem cookieless_of_cookielessB {c : CreatedRun} {row : Option ℕ} {s : ClientSystem plainCookies}
    {a : ClientAction} (h : cookielessB c row s a) : c.Cookieless row quotedLibraries s a := by
  rintro w i allowed now call clock slot v chain request rfl hat hph hown -
  simp only [cookielessB, hat, hown, not_true_eq_false, decide_false, Bool.false_or] at h
  exact .inl (Option.isNone_iff_eq_none.1 h)

theorem cookieless_inOrder : inOrderExecution.Cookieless (some 0) :=
  each_of_eachB (p := cookielessB _ _) (fun _ _ => cookieless_of_cookielessB) (by rfl)

theorem cookieless_interleaved : interleavedExecution.Cookieless (some 0) :=
  each_of_eachB (p := cookielessB _ _) (fun _ _ => cookieless_of_cookielessB) (by rfl)

/-- The record of the row, up to the names of its deliveries. -/
theorem record_interleaved : interleavedExecution.record (some 0) =
    (inOrderExecution.record (some 0)).map (Prod.map Nat.succ id) := by rfl

theorem rows_do_not_interfere_twoRows :
    inOrderExecution.Isolated (some 0) ∧
      (twoRows "eve").wireFor (some 0) interleavedExecution.final =
        (twoRows "bob").wireFor (some 0) inOrderExecution.final ∧
      ((twoRows "eve").wireFor (some 0) interleavedExecution.final).map (fun r => r.request.url) =
        ["https://api.test/login?user=ann", "https://api.test/me"] := by
  obtain ⟨hisolated, htwo⟩ := rows_do_not_interfere inOrderExecution cookieless_inOrder
  have hsame := htwo _ interleavedExecution Nat.succ cookieless_interleaved Nat.succ_injective (by rfl)
    record_interleaved
  exact ⟨hisolated, hsame, by rfl⟩

/-- The same steps, but the login of the other row sets a cookie. -/
def sharedClientExecution : Execution quotedLibraries plainCookies false (twoRows "eve") where
  start := oneClient
  actions := interleaved (some "session=eve")
  final := final quotedStep oneClient (interleaved (some "session=eve"))
  unseen := unseen_twoRows "eve"
  noWire := rfl
  run := run_final _ (by rfl)
  keeps := each_clientKeeps (fun _ _ _ => kept_interleaved _) (by rfl)

set_option maxRecDepth 2000 in
/-- Both requests of Ann's row go out with Eve's session, and nothing in the record of the row
says why. -/
theorem rows_interfere_sharedClient :
    sharedClientExecution.record (some 0) = interleavedExecution.record (some 0) ∧
      ((twoRows "eve").wireFor (some 0) interleavedExecution.final).map
        (fun r => r.request.headers.lookup "Cookie") = [none, none] ∧
      ((twoRows "eve").wireFor (some 0) sharedClientExecution.final).map
        (fun r => r.request.headers.lookup "Cookie") = [some "session=eve", some "session=eve"] ∧
      ¬ sharedClientExecution.Isolated (some 0) := by
  have hrecord : sharedClientExecution.record (some 0) = interleavedExecution.record (some 0) :=
    Eq.trans (b := (inOrderExecution.record (some 0)).map (Prod.map Nat.succ id)) (by rfl)
      record_interleaved.symm
  have hplain : ((twoRows "eve").wireFor (some 0) interleavedExecution.final).map
      (fun r => r.request.headers.lookup "Cookie") = [none, none] := by rfl
  have hshared : ((twoRows "eve").wireFor (some 0) sharedClientExecution.final).map
      (fun r => r.request.headers.lookup "Cookie") = [some "session=eve", some "session=eve"] := by rfl
  refine ⟨hrecord, hplain, hshared, fun h => ?_⟩
  have hsent := h.sent
  rw [hrecord, ← interleavedExecution.wireFor_eq cookieless_interleaved] at hsent
  rw [hsent, hplain] at hshared
  cases hshared

end ApiTesting
