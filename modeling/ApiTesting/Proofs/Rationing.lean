import ApiTesting.Proofs.Launch
import ApiTesting.Proofs.Scheduling
import ApiTesting.Proofs.RateBound
import ApiTesting.Spec.RationedSystem

/-! The rate limiter in the platform: the workers share the bucket of a host, and a request
goes out only for a token. So what holds of the bucket holds of the requests, whatever else
the workers and sweepers do, and whoever dies with a token taken. -/

namespace ApiTesting

open Keyed Machine TokenBucket

section
variable {lib : Libraries} {limiter : Option RateLimiter} {s s' u : Rationed} {a : RationedAction}
  {b : Action} {system : System}

/-- What a step asks of the rate limiter before it moves the platform by `b`. -/
inductive Asks (lib : Libraries) (limiter : Option RateLimiter) (s : Rationed) :
    RationedAction → Action → Rationed → Prop
  | nothing {b : Action} : (∀ w i allowed now call, b = .slot w i (.send allowed now call) →
      s.call? lib limiter w i = none) → Asks lib limiter s (.act b) b s
  | token {w : WorkerId} {i : ℕ} {allowed : Bool} {now : Timestamp} {call : Call} {c : AcquireCall} :
      s.call? lib limiter w i = some c → allowed = (s.serveCall c).1 →
      Asks lib limiter s (.act (.slot w i (.send allowed now call))) (.slot w i (.send allowed now call))
        (s.afterCall c)
  | tokenLost {w : WorkerId} {i : ℕ} {c : AcquireCall} : s.call? lib limiter w i = some c →
      Asks lib limiter s (.acquireRaised w i) (.slot w i .callRaised) (s.afterCall c)

theorem Asks.same (h : Asks lib limiter s a b u) :
    u.system = s.system ∧ u.clock = s.clock ∧ u.releases = s.releases := by
  cases h <;> exact ⟨rfl, rfl, rfl⟩

/-- Time passes, or the platform moves on what the rate limiter has said. -/
inductive RationedMove (lib : Libraries) (limiter : Option RateLimiter) (s : Rationed) :
    RationedAction → Rationed → Prop
  | tick {d : Timestamp} : RationedMove lib limiter s (.tick d) { s with clock := s.clock + d }
  | act {a : RationedAction} {b : Action} {u : Rationed} {system : System} : Asks lib limiter s a b u →
      Move lib limiter.isSome s.system b system →
      RationedMove lib limiter s a { u with system, releases := s.releases ++ s.releasesBy system b }

theorem rationedMove_of_move (ha : Asks lib limiter s a b u) (h : u.move lib limiter b = some s') :
    RationedMove lib limiter s a s' := by
  obtain ⟨hsystem, hclock, hreleases⟩ := ha.same
  obtain ⟨system, hstep, rfl⟩ := Option.map_eq_some_iff.1 h
  have hby : u.releasesBy system b = s.releasesBy system b := by
    cases b with
    | slot w i sa =>
      cases sa <;> simp only [Rationed.releasesBy, Rationed.newReleases, hsystem, hclock]
    | _ => rfl
  rw [hreleases, hby]
  rw [hsystem] at hstep
  exact .act ha (move_of_step hstep)

theorem rationedMove_of_step (h : rationedStep lib limiter s a = some s') :
    RationedMove lib limiter s a s' := by
  cases a with
  | tick d =>
    cases h
    exact .tick
  | acquireRaised w i =>
    simp only [rationedStep] at h
    split at h
    · cases h
    · rename_i c hc
      exact rationedMove_of_move (.tokenLost hc) h
  | act b =>
    by_cases hb : ∃ w i allowed now call, b = .slot w i (.send allowed now call)
    · obtain ⟨w, i, allowed, now, call, rfl⟩ := hb
      simp only [rationedStep] at h
      split at h
      · rename_i hnone
        refine rationedMove_of_move (.nothing fun v j _ _ _ he => ?_) h
        cases he
        exact hnone
      · rename_i c hc
        split at h
        · rename_i hallowed
          exact rationedMove_of_move (.token hc hallowed) h
        · cases h
    · have hquiet : rationedStep lib limiter s (.act b) = s.move lib limiter b := by
        cases b with
        | slot w i sa =>
          cases sa with
          | send allowed now call => exact absurd ⟨w, i, allowed, now, call, rfl⟩ hb
          | _ => rfl
        | _ => rfl
      rw [hquiet] at h
      exact rationedMove_of_move
        (.nothing fun w i allowed now call he => absurd ⟨w, i, allowed, now, call, he⟩ hb) h

/-- Requests leave at a send that the rate limiter has let through, and nowhere else. -/
theorem releasesBy_of_move (hm : Move lib limiter.isSome s.system b system) :
    (s.releasesBy system b = [] ∧ system.sent = s.system.sent) ∨
      ∃ w i allowed now call slot v chain st', b = .slot w i (.send allowed now call) ∧
        s.system.slotAt? w i = some slot ∧ slot.phase = .resolved v chain ∧
        passRateLimit lib limiter.isSome v chain allowed now call s.system.stores = (.ok (), st') ∧
        s.releasesBy system b = (v.requests chain).map (fun r => ⟨s.clock, v.testTask.retryCount, r⟩) ∧
        system.sent = s.system.sent ++ v.requests chain := by
  cases hm with
  | @slot w i sa slots slot e hw hi hmove =>
    have hat := slotAt?_eq hw hi
    cases hmove with
    | @refused v chain allowed now call err st' hph hpass =>
      refine .inl ⟨?_, List.append_nil _⟩
      simp [Rationed.releasesBy, Rationed.newReleases, hat, hph]
    | @sent v chain allowed now call st' hph hpass =>
      refine .inr ⟨w, i, allowed, now, call, slot, v, chain, st', rfl, hat, hph, hpass, ?_, rfl⟩
      simp [Rationed.releasesBy, Rationed.newReleases, hat, hph]
    | _ => exact .inl ⟨rfl, List.append_nil _⟩
  | _ => exact .inl ⟨rfl, rfl⟩

/-- The requests sent are those of the platform. -/
theorem sent_of_rationedMove (h : RationedMove lib limiter s a s') :
    ∃ new, s'.releases = s.releases ++ new ∧ s'.system.sent = s.system.sent ++ new.map Release.sent := by
  cases h with
  | tick => exact ⟨[], (List.append_nil _).symm, (List.append_nil _).symm⟩
  | @act a b u system ha hm =>
    refine ⟨s.releasesBy system b, rfl, ?_⟩
    rcases releasesBy_of_move hm with
      ⟨hby, hsent⟩ | ⟨w, i, allowed, now, call, slot, v, chain, st', -, -, -, -, hby, hsent⟩
    · rw [hby, hsent]
      exact (List.append_nil _).symm
    · rw [hby, hsent, List.map_map]
      exact congrArg _ (List.map_id _).symm

/-- A resolved request goes to the URL its template resolves to. -/
theorem resolveTemplate_of_resolveRequest {chain env : Dict String String} {r : ApiRequest}
    {request : ResolvedRequest} (h : resolveRequest chain env r = .ok request) :
    resolveTemplate chain env r.url = .ok request.url := by
  unfold resolveRequest at h
  rcases hurl : resolveTemplate chain env r.url with e | url
  · rw [hurl] at h
    cases h
  · rcases hheaders : resolveMapping chain env r.headers with e | headers
    · rw [hurl, hheaders] at h
      cases h
    · rcases hparams : resolveMapping chain env r.queryParams with e | params
      · rw [hurl, hheaders, hparams] at h
        cases h
      · rcases hbody : resolveBody chain env r.body with e | content
        · rw [hurl, hheaders, hparams, hbody] at h
          cases h
        · rw [hurl, hheaders, hparams, hbody] at h
          cases h
          rfl

/-- The host of a request is the one its attempt asks the rate limiter for. -/
theorem host_of_requests {v : TaskView} {chain : Dict String String} {r : SentRequest}
    (hr : r ∈ v.requests chain) : r.host lib = v.limitedHost lib chain := by
  unfold TaskView.requests at hr
  split at hr
  · rename_i request hresolve
    obtain rfl := List.mem_singleton.1 hr
    simp only [SentRequest.host, TaskView.limitedHost, resolveTemplate_of_resolveRequest hresolve]
  · cases hr

/-- With a host to ask for, an attempt passes the rate limiter only with a token. -/
theorem allowed_of_passRateLimit {v : TaskView} {chain : Dict String String} {allowed : Bool}
    {now : Timestamp} {call : Call} {st st' : Stores} {host : String} (hhost : v.limitedHost lib chain = some host)
    (h : passRateLimit lib true v chain allowed now call st = (.ok (), st')) : allowed = true := by
  rw [passRateLimit, if_pos rfl, checkRateLimit] at h
  unfold TaskView.limitedHost at hhost
  split at h
  · rename_i e he
    rw [he] at hhost
    cases hhost
  · rename_i url hurl
    rw [hurl] at hhost
    dsimp only at hhost
    split at h
    · cases h
    · rename_i hnone
      rw [hnone] at hhost
      cases hhost
    · split at h
      · assumption
      · split at h <;> cases h

theorem call?_eq_some_iff {w : WorkerId} {i : ℕ} {c : AcquireCall} : s.call? lib limiter w i = some c ↔
    ∃ l slot v chain host, limiter = some l ∧ s.system.slotAt? w i = some slot ∧
      slot.phase = .resolved v chain ∧ v.limitedHost lib chain = some host ∧ c = ⟨l, host, 1, s.clock⟩ := by
  unfold Rationed.call?
  constructor
  · intro h
    split at h
    · rename_i l v chain hph
      obtain ⟨slot, hat, hph⟩ := Option.map_eq_some_iff.1 hph
      obtain ⟨host, hhost, rfl⟩ := Option.map_eq_some_iff.1 h
      exact ⟨l, slot, v, chain, host, rfl, hat, hph, hhost, rfl⟩
    · cases h
  · rintro ⟨l, slot, v, chain, host, rfl, hat, hph, hhost, rfl⟩
    simp only [hat, Option.map_some, hph, hhost]

end

/-! The calls of a run, and the requests among those that were granted. -/

section
variable {lib : Libraries} {l : RateLimiter} {s s' : Rationed} {a : RationedAction} {host : String}

theorem serve_append (ttlSeconds : Option ℕ) (redis : Buckets) (calls : List AcquireCall) (c : AcquireCall) :
    serve ttlSeconds redis (calls ++ [c]) =
      let last := c.limiter.acquire ttlSeconds c.host c.tokens c.at_ (serve ttlSeconds redis calls).2
      ((serve ttlSeconds redis calls).1 ++ [last.1], last.2) := by
  induction calls generalizing redis with
  | nil => rfl
  | cons d calls ih =>
    simp only [List.cons_append, serve_cons, ih]

structure Metered (lib : Libraries) (l : RateLimiter) (s : Rationed) : Prop where
  answers : s.calls.map Prod.snd = (serve (some bucketTtlSeconds) .empty (s.calls.map Prod.fst)).1
  buckets : s.buckets = (serve (some bucketTtlSeconds) .empty (s.calls.map Prod.fst)).2
  single : ∀ c ∈ s.calls, c.1.limiter = l ∧ c.1.tokens = 1 ∧ c.1.at_ ≤ s.clock
  ordered : (s.calls.map Prod.fst).Pairwise fun c d => c.at_ ≤ d.at_
  paid : ∀ host, ((s.releases.filter fun p => p.sent.host lib = some host).map Release.at_).Sublist
    ((s.calls.filter fun c => c.2 && c.1.host = host).map fun c => c.1.at_)

/-- One more call, at the time of the clock. -/
theorem Metered.afterCall (h : Metered lib l s) {c : AcquireCall} (hl : c.limiter = l) (htokens : c.tokens = 1)
    (hat : c.at_ = s.clock) : Metered lib l (s.afterCall c) where
  answers := by
    simp only [Rationed.afterCall, List.map_append, List.map_cons, List.map_nil, serve_append]
    rw [h.answers, Rationed.serveCall, h.buckets]
    rfl
  buckets := by
    simp only [Rationed.afterCall, List.map_append, List.map_cons, List.map_nil, serve_append]
    rw [Rationed.serveCall, h.buckets]
    rfl
  single := by
    intro d hd
    rcases List.mem_append.1 hd with hd | hd
    · exact h.single d hd
    · obtain rfl := List.mem_singleton.1 hd
      exact ⟨hl, htokens, hat.le⟩
  ordered := by
    simp only [Rationed.afterCall, List.map_append, List.map_cons, List.map_nil]
    refine List.pairwise_append.2 ⟨h.ordered, List.pairwise_singleton _ _, fun d hd e he => ?_⟩
    obtain ⟨q, hq, rfl⟩ := List.mem_map.1 hd
    obtain rfl := List.mem_singleton.1 he
    exact (h.single q hq).2.2.trans hat.ge
  paid := by
    intro host
    simp only [Rationed.afterCall, List.filter_append, List.map_append]
    exact (h.paid host).trans (List.sublist_append_left _ _)

/-- Only `paid` looks at what has been sent. -/
theorem Metered.congr (h : Metered lib l s) (hcalls : s'.calls = s.calls) (hbuckets : s'.buckets = s.buckets)
    (hclock : s.clock ≤ s'.clock)
    (hpaid : ∀ host, ((s'.releases.filter fun p => p.sent.host lib = some host).map Release.at_).Sublist
      ((s.calls.filter fun c => c.2 && c.1.host = host).map fun c => c.1.at_)) : Metered lib l s' where
  answers := hcalls ▸ h.answers
  buckets := hbuckets.trans (hcalls ▸ h.buckets)
  single := fun c hc =>
    let ⟨hl, htokens, hat⟩ := h.single c (hcalls ▸ hc)
    ⟨hl, htokens, hat.trans hclock⟩
  ordered := hcalls ▸ h.ordered
  paid := hcalls ▸ hpaid

/-- What a send adds to the requests of a host. -/
theorem times_of_requests {v : TaskView} {chain : Dict String String} (clock : Timestamp) (host : String) :
    ((((v.requests chain).map fun r => (⟨clock, v.testTask.retryCount, r⟩ : Release)).filter fun p =>
      p.sent.host lib = some host).map Release.at_).Sublist
      (if v.limitedHost lib chain = some host then [clock] else []) := by
  have hlen : v.requests chain = [] ∨ ∃ r, v.requests chain = [r] := by
    unfold TaskView.requests
    split
    · exact .inr ⟨_, rfl⟩
    · exact .inl rfl
  rcases hlen with hnil | ⟨r, hr⟩
  · rw [hnil]
    exact List.nil_sublist _
  · have hhost : r.host lib = v.limitedHost lib chain := host_of_requests (hr ▸ List.mem_singleton_self r)
    rw [hr, List.map_singleton, List.filter_singleton, hhost]
    by_cases heq : v.limitedHost lib chain = some host
    · simp [heq]
    · simp [heq]

theorem Metered.step (h : Metered lib l s) (hm : RationedMove lib (some l) s a s') : Metered lib l s' := by
  cases hm with
  | @tick d => exact h.congr rfl rfl (Nat.le_add_right _ _) h.paid
  | @act a b u system ha hmove =>
    have hpaid : ∀ host, ((s.releases ++ s.releasesBy system b).filter fun p =>
        p.sent.host lib = some host).map Release.at_ =
        (s.releases.filter fun p => p.sent.host lib = some host).map Release.at_ ++
          ((s.releasesBy system b).filter fun p => p.sent.host lib = some host).map Release.at_ := by
      intro host
      rw [List.filter_append, List.map_append]
    cases ha with
    | nothing hnone =>
      refine h.congr rfl rfl le_rfl fun host => ?_
      rw [hpaid]
      rcases releasesBy_of_move hmove with
        ⟨hby, -⟩ | ⟨w, i, allowed, now, call, slot, v, chain, st', rfl, hat, hph, -, hby, -⟩
      · rw [hby, List.filter_nil, List.map_nil, List.append_nil]
        exact h.paid host
      · -- an attempt that has asked for nothing has no host
        have hhost : v.limitedHost lib chain ≠ some host := by
          intro hhost
          have hcall := call?_eq_some_iff.2 ⟨l, slot, v, chain, host, rfl, hat, hph, hhost, rfl⟩
          rw [hnone w i allowed now call rfl] at hcall
          cases hcall
        have htimes := @times_of_requests lib v chain s.clock host
        rw [if_neg hhost, List.sublist_nil] at htimes
        rw [hby, htimes, List.append_nil]
        exact h.paid host
    | @token w i allowed now call c hcall hallowed =>
      obtain ⟨l', slot, v, chain, host, hl', hat, hph, hhost, rfl⟩ := call?_eq_some_iff.1 hcall
      cases hl'
      refine (h.afterCall rfl rfl rfl).congr rfl rfl le_rfl fun host' => ?_
      rw [hpaid]
      simp only [Rationed.afterCall, List.filter_append, List.map_append]
      refine List.Sublist.append (h.paid host') ?_
      rcases releasesBy_of_move hmove with
        ⟨hby, -⟩ | ⟨w', i', _, _, _, slot', v', chain', st', he, hat', hph', hpass, hby, -⟩
      · rw [hby]
        exact List.nil_sublist _
      · cases he
        obtain rfl := Option.some.inj (hat'.symm.trans hat)
        cases hph'.symm.trans hph
        have htimes := @times_of_requests lib v chain s.clock host'
        rw [hby, ← hallowed, allowed_of_passRateLimit hhost hpass]
        by_cases heq : host = host'
        · subst heq
          rw [if_pos hhost] at htimes
          simpa using htimes
        · rw [if_neg (by rw [hhost]; simpa using heq), List.sublist_nil] at htimes
          rw [htimes]
          exact List.nil_sublist _
    | @tokenLost w i c hcall =>
      obtain ⟨l', slot, v, chain, host, hl', hat, hph, hhost, rfl⟩ := call?_eq_some_iff.1 hcall
      cases hl'
      refine (h.afterCall rfl rfl rfl).congr rfl rfl le_rfl fun host' => ?_
      exact (List.append_nil s.releases).symm ▸ (h.afterCall (c := ⟨l, host, 1, s.clock⟩) rfl rfl rfl).paid host'

theorem metered_rationed (lib : Libraries) (l : RateLimiter) (s₀ : System) (clock : Timestamp) :
    Metered lib l (s₀.rationed clock) where
  answers := rfl
  buckets := rfl
  single := by
    rintro _ ⟨⟩
  ordered := .nil
  paid := fun _ => List.nil_sublist _

/-! What the granted calls of one host come to. -/

/-- The calls for one host are answered as if there were no others. -/
theorem Metered.of_host (h : Metered lib l s) (host : String) :
    CallsOf l host ((s.calls.map Prod.fst).filter fun c => c.host = host) ∧
      (s.calls.filter fun c => c.1.host = host).map Prod.snd =
        (serve (some bucketTtlSeconds) .empty ((s.calls.map Prod.fst).filter fun c => c.host = host)).1 := by
  constructor
  · refine ⟨?_, ?_, h.ordered.sublist List.filter_sublist⟩
    · intro c hc
      obtain ⟨d, hd, rfl⟩ := List.mem_map.1 (List.mem_filter.1 hc).1
      exact (h.single d hd).1
    · intro c hc
      exact of_decide_eq_true (List.mem_filter.1 hc).2
  · have hzip : (s.calls.map Prod.fst).zip (s.calls.map Prod.snd) = s.calls := by
      rw [List.zip_map']
      exact List.map_id _
    have hserve := @serve_host (some bucketTtlSeconds) host .empty .empty rfl (s.calls.map Prod.fst)
    rwa [← h.answers, hzip] at hserve

/-- A bucket that fills up within its time to live may as well never expire. -/
theorem grantedBetween_serve_le {calls : List AcquireCall} (h : CallsOf l host calls) (hcap : 0 ≤ l.capacity)
    (hrate : 0 ≤ l.refillRate) (hfill : (l.capacity : ℚ) ≤ l.refillRate * bucketTtlSeconds)
    (hk : ∀ c ∈ calls, 0 ≤ c.tokens) {start stop : ℚ} (hle : start ≤ stop) :
    grantedBetween start stop (calls.zip (serve (some bucketTtlSeconds) .empty calls).1) ≤
      l.capacity + l.refillRate * (stop - start) := by
  have hempty : Sound l.settings none := fun c hc => by cases hc
  have hlonger : (l.capacity : ℚ) ≤ l.refillRate * (bucketTtlSeconds + 1 / 1000000) :=
    hfill.trans (mul_le_mul_of_nonneg_left (le_add_of_nonneg_right (by norm_num)) hrate)
  rw [grantedBetween_eq, serve_expiring h hrate hlonger]
  refine takenBetween_le (s := l.settings) (Int.cast_nonneg hcap) hrate hempty ?_ h.requests_ordered hle
  intro r hr
  obtain ⟨c, hc, rfl⟩ := List.mem_map.1 hr
  exact Int.cast_nonneg (hk c hc)

theorem grantedBetween_single {calls : List (AcquireCall × Bool)} (h : ∀ c ∈ calls, c.1.tokens = 1)
    (start stop : Timestamp) : grantedBetween (redisTime start) (redisTime stop) calls =
      (((calls.filter Prod.snd).map fun c => c.1.at_).countP fun t => start ≤ t ∧ t ≤ stop : ℕ) := by
  induction calls with
  | nil => rfl
  | cons c calls ih =>
    obtain ⟨c, allowed⟩ := c
    have htokens : c.tokens = 1 := h _ List.mem_cons_self
    simp only [grantedBetween, ih fun d hd => h d (List.mem_cons_of_mem _ hd), redisTime_le_iff, htokens]
    cases allowed with
    | false => simp
    | true =>
      rw [List.filter_cons_of_pos rfl, List.map_cons, List.countP_cons]
      by_cases hin : start ≤ c.at_ ∧ c.at_ ≤ stop
      · simp [hin, add_comm]
      · rw [if_neg (by simpa using hin), if_neg (by simpa using hin)]
        simp

/-- The requests let through to a host are as many as its granted calls at most. -/
theorem Metered.countP_le (h : Metered lib l s) (host : String) (start stop : Timestamp) :
    ((s.releases.countP fun p => p.sent.host lib = some host ∧ start ≤ p.at_ ∧ p.at_ ≤ stop : ℕ) : ℚ) ≤
      grantedBetween (redisTime start) (redisTime stop) (s.calls.filter fun c => c.1.host = host) := by
  rw [grantedBetween_single fun c hc => (h.single c (List.mem_filter.1 hc).1).2.1]
  have hsends : (s.releases.countP fun p => p.sent.host lib = some host ∧ start ≤ p.at_ ∧ p.at_ ≤ stop) =
      ((s.releases.filter fun p => p.sent.host lib = some host).map Release.at_).countP fun t =>
        start ≤ t ∧ t ≤ stop := by
    rw [List.countP_map, List.countP_filter]
    refine List.countP_congr fun p _ => ?_
    simp [and_comm]
  have hcalls : (s.calls.filter fun c => c.1.host = host).filter Prod.snd =
      s.calls.filter fun c => c.2 && c.1.host = host := by
    rw [List.filter_filter]
  rw [hsends, hcalls, Nat.cast_le]
  exact (h.paid host).countP_le

/-- Whatever the workers and the sweepers do, and whoever dies in between, no stretch of time
sees more requests let through to a host than a full bucket and its refill in that time. -/
theorem platform_rate_bound {s₀ : System} {clock : Timestamp} {as : List RationedAction}
    (hcap : 0 ≤ l.capacity) (hrate : 0 ≤ l.refillRate)
    (hfill : (l.capacity : ℚ) ≤ l.refillRate * bucketTtlSeconds)
    (hr : Run (rationedStep lib (some l)) (s₀.rationed clock) as s) :
    s.system.sent = s₀.sent ++ s.releases.map Release.sent ∧
      ∀ (host : String) (start stop : Timestamp), start ≤ stop →
        ((s.releases.countP fun p => p.sent.host lib = some host ∧ start ≤ p.at_ ∧ p.at_ ≤ stop : ℕ) : ℚ) ≤
          l.capacity + l.refillRate * (redisTime stop - redisTime start) := by
  have hinv : s.system.sent = s₀.sent ++ s.releases.map Release.sent ∧ Metered lib l s := by
    refine hr.keeps (I := fun s => s.system.sent = s₀.sent ++ s.releases.map Release.sent ∧ Metered lib l s)
      ⟨(List.append_nil _).symm, metered_rationed lib l s₀ clock⟩ ?_
    rintro u a u' ⟨hsent, hmetered⟩ hstep
    have hm := rationedMove_of_step hstep
    obtain ⟨new, hnew, hsent'⟩ := sent_of_rationedMove hm
    refine ⟨?_, hmetered.step hm⟩
    rw [hsent', hnew, hsent, List.map_append, List.append_assoc]
  obtain ⟨hsent, hmetered⟩ := hinv
  refine ⟨hsent, fun host start stop hle => (hmetered.countP_le host start stop).trans ?_⟩
  obtain ⟨hcalls, hanswers⟩ := hmetered.of_host host
  have hzip : ((s.calls.map Prod.fst).filter fun c => c.host = host).zip
      (serve (some bucketTtlSeconds) .empty ((s.calls.map Prod.fst).filter fun c => c.host = host)).1 =
      s.calls.filter fun c => c.1.host = host := by
    rw [← hanswers, List.filter_map, Function.comp_def, List.zip_map']
    exact List.map_id _
  rw [← hzip]
  refine grantedBetween_serve_le hcalls hcap hrate hfill (fun c hc => ?_) (redisTime_le_iff.2 hle)
  obtain ⟨d, hd, rfl⟩ := List.mem_map.1 (List.mem_filter.1 hc).1
  rw [(hmetered.single d hd).2.1]
  exact Int.one_nonneg

end

/-- The first attempt fails, and two seconds later the second succeeds. -/
def rationedRetry : List RationedAction :=
  (iteration 0 failedReply 0 ++ [Action.ack 0 .ok]).map .act ++ [.tick 2000000] ++
    (retrySweep 2000000 ++ iteration 0 okReply 2000000 ++ [Action.ack 0 .ok]).map .act

theorem run_rationedRetry : Run (rationedStep plainLibraries (some defaultLimiter)) (oneTask.rationed 0)
    rationedRetry (final (rationedStep plainLibraries (some defaultLimiter)) (oneTask.rationed 0) rationedRetry) :=
  run_final _ (by decide +kernel)

theorem platform_rate_bound_rationedRetry :
    (final (rationedStep plainLibraries (some defaultLimiter)) (oneTask.rationed 0) rationedRetry).system.sent =
        oneTask.sent ++ (final (rationedStep plainLibraries (some defaultLimiter)) (oneTask.rationed 0)
          rationedRetry).releases.map Release.sent ∧
      ∀ (host : String) (start stop : Timestamp), start ≤ stop →
        (((final (rationedStep plainLibraries (some defaultLimiter)) (oneTask.rationed 0)
          rationedRetry).releases.countP fun p =>
            p.sent.host plainLibraries = some host ∧ start ≤ p.at_ ∧ p.at_ ≤ stop : ℕ) : ℚ) ≤
          defaultLimiter.capacity + defaultLimiter.refillRate * (redisTime stop - redisTime start) :=
  platform_rate_bound (by decide) (by norm_num [defaultLimiter]) (by norm_num [defaultLimiter, bucketTtlSeconds])
    run_rationedRetry

end ApiTesting
