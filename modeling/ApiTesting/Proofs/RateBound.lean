import ApiTesting.Spec.RateLimiter
import ApiTesting.Lib.TokenBucket
import Mathlib.Data.List.Chain
import Mathlib.Algebra.Order.Floor.Semifield
import Mathlib.Data.List.InsertIdx
import Mathlib.Data.Rat.Floor

/-! What the rate limiter grants. The script is a request to the bucket of its host,
a bucket being what Redis still keeps of it; so the limiter grants no more than a
token bucket does, a refused call is as good as none, and an expired bucket is missed
just when it could not have filled up. -/

namespace ApiTesting

open Keyed TokenBucket

theorem redisTime_eq (now : Timestamp) : redisTime now = (now : ℚ) / 1000000 := by
  have h : ((1000000 * (now / 1000000) + now % 1000000 : ℕ) : ℚ) = (now : ℚ) :=
    congrArg Nat.cast (Nat.div_add_mod now 1000000)
  push_cast at h
  rw [redisTime, ← h]
  ring

theorem redisTime_le_iff {s t : Timestamp} : redisTime s ≤ redisTime t ↔ s ≤ t := by
  rw [redisTime_eq, redisTime_eq, div_le_div_iff_of_pos_right (by norm_num)]
  exact Nat.cast_le

/-- The millisecond of a time that the script has computed. -/
theorem floor_redisTime (t : Timestamp) : ⌊redisTime t * 1000⌋₊ = milliseconds t := by
  have h : redisTime t * 1000 = ((t : ℕ) : ℚ) / (1000 : ℕ) := by
    rw [redisTime_eq]
    push_cast
    ring
  rw [h, Nat.floor_div_eq_div, milliseconds]

namespace RateLimiter

/-- The settings of an instance. -/
def settings (l : RateLimiter) : Settings ℚ := ⟨l.capacity, l.refillRate⟩

end RateLimiter

/-- What a call asks of the bucket of its host. -/
def AcquireCall.request (c : AcquireCall) : Request ℚ := ⟨c.tokens, redisTime c.at_⟩

def BucketHash.bucket (b : BucketHash) : Bucket ℚ := ⟨b.tokens, b.timestamp⟩

def Buckets.bucket (redis : Buckets) (host : String) : Option (Bucket ℚ) :=
  (redis.lookup (bucketKey host)).map BucketHash.bucket

/-- A bucket's key expires some time after the last call, or never. -/
def BucketHash.ExpiresAfter (ttlSeconds : Option ℕ) (b : BucketHash) : Prop :=
  ∃ lastCall : Timestamp, b.timestamp = redisTime lastCall ∧
    b.expiresAt = ttlSeconds.map (expiry lastCall)

/-- Whether a bucket with this time to live is still there, by the times of the script. -/
def keptFor : Option ℕ → ℚ → ℚ → Bool
  | none => forever
  | some ttl => fun stamp now => ⌊now * 1000⌋₊ ≤ ⌊stamp * 1000⌋₊ + ttl * 1000

theorem keptFor_redisTime (ttl : ℕ) (s t : Timestamp) :
    keptFor (some ttl) (redisTime s) (redisTime t) = decide (milliseconds t ≤ expiry s ttl) := by
  rw [expiry, ← floor_redisTime, ← floor_redisTime]
  rfl

section
variable {l : RateLimiter} {ttlSeconds : Option ℕ} {host : String} {redis : Buckets}

/-- The script is one request to the bucket. -/
theorem tokenBucketScript_eq (s : Settings ℚ) (r : Request ℚ) (b : Option (Bucket ℚ)) :
    tokenBucketScript s.capacity s.rate r.amount r.time (b.map fun b => (b.tokens, b.stamp)) =
      (granted s b r, (next s b r).tokens, (next s b r).stamp) := by
  have hlevel : min s.capacity
      ((b.elim s.capacity Bucket.tokens) + max 0 (r.time - b.elim r.time Bucket.stamp) * s.rate) = level s b r.time := by
    cases b with
    | none => simp [level]
    | some b => rfl
  have hscript : tokenBucketScript s.capacity s.rate r.amount r.time (b.map fun b => (b.tokens, b.stamp)) =
      if r.amount ≤ level s b r.time then (true, level s b r.time - r.amount, r.time)
      else (false, level s b r.time, r.time) := by
    rw [← hlevel]
    cases b with
    | none => rfl
    | some b => rfl
  rw [hscript]
  by_cases h : r.amount ≤ level s b r.time
  · simp [h, granted, next, taken]
  · simp [h, granted, next, taken]

theorem live_eq (now : Timestamp) (key : String) {b : BucketHash} (h : redis.lookup key = some b) :
    redis.live now key = if unexpired now b.expiresAt then some b else none := by
  rw [Buckets.live, h, Option.filter_some]

/-- A live key is a bucket that has not been given up. -/
theorem live_eq_found (hb : ∀ b ∈ redis.lookup (bucketKey host), b.ExpiresAfter ttlSeconds) (now : Timestamp) :
    (redis.live now (bucketKey host)).map BucketHash.bucket =
      found (keptFor ttlSeconds) (redis.bucket host) (redisTime now) := by
  rcases hl : redis.lookup (bucketKey host) with _ | b
  · rw [Buckets.live, Buckets.bucket, hl]
    rfl
  · obtain ⟨lastCall, htime, hexpires⟩ := hb b hl
    have hkept : unexpired now b.expiresAt = keptFor ttlSeconds b.bucket.stamp (redisTime now) := by
      rw [hexpires, BucketHash.bucket, htime]
      cases ttlSeconds with
      | none => rfl
      | some ttl => rw [keptFor_redisTime, Option.map_some, unexpired, Option.all_some]
    have hbucket : redis.bucket host = some b.bucket := by rw [Buckets.bucket, hl, Option.map_some]
    rw [live_eq now _ hl, hbucket, found, Option.filter_some, ← hkept]
    split <;> rfl

theorem acquire_eq (hb : ∀ b ∈ redis.lookup (bucketKey host), b.ExpiresAfter ttlSeconds) (tokens : ℤ)
    (now : Timestamp) :
    (l.acquire ttlSeconds host tokens now redis).1 =
        granted l.settings (found (keptFor ttlSeconds) (redis.bucket host) (redisTime now)) ⟨tokens, redisTime now⟩ ∧
      (l.acquire ttlSeconds host tokens now redis).2.bucket host =
        some (next l.settings (found (keptFor ttlSeconds) (redis.bucket host) (redisTime now)) ⟨tokens, redisTime now⟩) ∧
      ∀ b ∈ (l.acquire ttlSeconds host tokens now redis).2.lookup (bucketKey host), b.ExpiresAfter ttlSeconds := by
  have hread : (redis.live now (bucketKey host)).map (fun b => (b.tokens, b.timestamp)) =
      (found (keptFor ttlSeconds) (redis.bucket host) (redisTime now)).map fun b => (b.tokens, b.stamp) := by
    rw [← live_eq_found hb now, Option.map_map]
    rfl
  have hscript := tokenBucketScript_eq l.settings ⟨tokens, redisTime now⟩
    (found (keptFor ttlSeconds) (redis.bucket host) (redisTime now))
  rw [← hread] at hscript
  simp only [RateLimiter.settings] at hscript
  simp only [RateLimiter.acquire, hscript, Buckets.bucket, Dict.lookup_put, if_true, Option.map_some]
  refine ⟨rfl, rfl, fun b h => ?_⟩
  obtain rfl := Option.some.inj h
  exact ⟨now, rfl, rfl⟩

end

/-- Calls for one host, in the order of the clock, of instances with the same settings. -/
structure CallsOf (l : RateLimiter) (host : String) (calls : List AcquireCall) : Prop where
  limiter : ∀ c ∈ calls, c.limiter = l
  host : ∀ c ∈ calls, c.host = host
  ordered : calls.Pairwise fun c d => c.at_ ≤ d.at_

/-- The tokens granted from `start` to `stop`, in seconds. -/
def grantedBetween (start stop : ℚ) : List (AcquireCall × Bool) → ℚ
  | [] => 0
  | (c, allowed) :: rest =>
    (if allowed ∧ start ≤ redisTime c.at_ ∧ redisTime c.at_ ≤ stop then (c.tokens : ℚ) else 0) +
      grantedBetween start stop rest

theorem grantedBetween_eq (start stop : ℚ) (calls : List AcquireCall) (answers : List Bool) :
    grantedBetween start stop (calls.zip answers) =
      takenBetween start stop ((calls.map AcquireCall.request).zip answers) := by
  induction calls generalizing answers with
  | nil => rfl
  | cons c calls ih =>
    cases answers with
    | nil => rfl
    | cons allowed answers =>
      rw [List.zip_cons_cons, grantedBetween, ih, List.map_cons, List.zip_cons_cons, takenBetween]
      rfl

section
variable {l : RateLimiter} {ttlSeconds : Option ℕ} {host : String} {redis : Buckets} {calls : List AcquireCall}

theorem serve_cons (c : AcquireCall) :
    serve ttlSeconds redis (c :: calls) =
      let first := c.limiter.acquire ttlSeconds c.host c.tokens c.at_ redis
      (first.1 :: (serve ttlSeconds first.2 calls).1, (serve ttlSeconds first.2 calls).2) := rfl

theorem bucketKey_injective : Function.Injective bucketKey := by
  intro a b h
  rw [bucketKey, bucketKey, ← String.toList_inj, String.toList_append, String.toList_append] at h
  exact String.toList_inj.1 (List.append_cancel_left h)

/-- A call sees, and writes, the key of its host only. -/
theorem acquire_congr {redis' : Buckets} (h : redis.lookup (bucketKey host) = redis'.lookup (bucketKey host))
    (l : RateLimiter) (tokens : ℤ) (now : Timestamp) :
    (l.acquire ttlSeconds host tokens now redis).1 = (l.acquire ttlSeconds host tokens now redis').1 ∧
      (l.acquire ttlSeconds host tokens now redis).2.lookup (bucketKey host) =
        (l.acquire ttlSeconds host tokens now redis').2.lookup (bucketKey host) := by
  have hlive : redis.live now (bucketKey host) = redis'.live now (bucketKey host) := by
    rw [Buckets.live, Buckets.live, h]
  simp only [RateLimiter.acquire, hlive, Dict.lookup_put, if_true]
  exact ⟨trivial, trivial⟩

theorem lookup_acquire_ne (l : RateLimiter) {host' : String} (h : host' ≠ host) (tokens : ℤ) (now : Timestamp) :
    (l.acquire ttlSeconds host' tokens now redis).2.lookup (bucketKey host) = redis.lookup (bucketKey host) := by
  simp only [RateLimiter.acquire, Dict.lookup_put]
  rw [if_neg fun hk => h (bucketKey_injective hk).symm]

/-- Hosts do not share tokens: whatever is called in between, the calls for one host
get the answers they would get by themselves. -/
theorem serve_host {redis' : Buckets} (h : redis.lookup (bucketKey host) = redis'.lookup (bucketKey host))
    (calls : List AcquireCall) :
    ((calls.zip (serve ttlSeconds redis calls).1).filter fun p => p.1.host = host).map Prod.snd =
      (serve ttlSeconds redis' (calls.filter fun c => c.host = host)).1 := by
  induction calls generalizing redis redis' with
  | nil => rfl
  | cons c calls ih =>
    rw [serve_cons, List.zip_cons_cons]
    by_cases hc : c.host = host
    · subst hc
      obtain ⟨hallowed, hkey⟩ := @acquire_congr ttlSeconds _ _ _ h c.limiter c.tokens c.at_
      rw [List.filter_cons_of_pos (by simp), List.filter_cons_of_pos (by simp), serve_cons, List.map_cons, ih hkey,
        hallowed]
    · rw [List.filter_cons_of_neg (by simpa using hc), List.filter_cons_of_neg (by simpa using hc)]
      exact ih ((lookup_acquire_ne c.limiter hc c.tokens c.at_).trans h)

theorem CallsOf.tail {c : AcquireCall} (h : CallsOf l host (c :: calls)) : CallsOf l host calls where
  limiter := fun d hd => h.limiter d (List.mem_cons_of_mem c hd)
  host := fun d hd => h.host d (List.mem_cons_of_mem c hd)
  ordered := (List.pairwise_cons.1 h.ordered).2

theorem CallsOf.sublist {calls' : List AcquireCall} (h : CallsOf l host calls) (hs : calls'.Sublist calls) :
    CallsOf l host calls' where
  limiter := fun d hd => h.limiter d (hs.subset hd)
  host := fun d hd => h.host d (hs.subset hd)
  ordered := h.ordered.sublist hs

theorem CallsOf.requests_ordered (h : CallsOf l host calls) :
    (calls.map AcquireCall.request).Pairwise fun r q => r.time ≤ q.time :=
  List.pairwise_map.2 (h.ordered.imp fun hle => redisTime_le_iff.2 hle)

/-- Served calls are requests to the bucket of the host. -/
theorem serve_eq (h : CallsOf l host calls)
    (hb : ∀ b ∈ redis.lookup (bucketKey host), b.ExpiresAfter ttlSeconds) :
    (serve ttlSeconds redis calls).1 =
        answers l.settings (keptFor ttlSeconds) (redis.bucket host) (calls.map AcquireCall.request) ∧
      (serve ttlSeconds redis calls).2.bucket host =
        after l.settings (keptFor ttlSeconds) (redis.bucket host) (calls.map AcquireCall.request) := by
  induction calls generalizing redis with
  | nil => exact ⟨rfl, rfl⟩
  | cons c calls ih =>
    obtain ⟨limiter, chost, tokens, now⟩ := c
    obtain rfl : limiter = l := h.limiter _ List.mem_cons_self
    obtain rfl : chost = host := h.host _ List.mem_cons_self
    obtain ⟨hallowed, hbucket, hkept⟩ := acquire_eq hb tokens now
    obtain ⟨hanswers, hafter⟩ := ih h.tail hkept
    rw [hbucket] at hanswers hafter
    rw [serve_cons, List.map_cons, answers, after]
    exact ⟨congrArg₂ List.cons hallowed hanswers, hafter⟩

theorem answers_serve (h : CallsOf l host calls) :
    (serve ttlSeconds .empty calls).1 =
      answers l.settings (keptFor ttlSeconds) none (calls.map AcquireCall.request) :=
  (serve_eq h fun _ hb => by cases hb).1

theorem bucket_serve (h : CallsOf l host calls) :
    (serve ttlSeconds .empty calls).2.bucket host =
      after l.settings (keptFor ttlSeconds) none (calls.map AcquireCall.request) :=
  (serve_eq h fun _ hb => by cases hb).2

/-- Calls less than the time to live apart find the bucket of the call before. -/
theorem requests_frequent {ttl : ℕ} (hgap : calls.IsChain fun c d => d.at_ < c.at_ + ttl * 1000000) :
    (calls.map AcquireCall.request).IsChain fun r q => keptFor (some ttl) r.time q.time = true := by
  refine (List.isChain_map _).2 (hgap.imp fun c d h => ?_)
  rw [AcquireCall.request, AcquireCall.request, keptFor_redisTime, decide_eq_true_eq, expiry, milliseconds,
    milliseconds]
  omega

theorem serve_frequent (h : CallsOf l host calls) {ttl : ℕ}
    (hgap : calls.IsChain fun c d => d.at_ < c.at_ + ttl * 1000000) :
    (serve (some ttl) .empty calls).1 = answers l.settings forever none (calls.map AcquireCall.request) ∧
      (serve (some ttl) .empty calls).2.bucket host =
        after l.settings forever none (calls.map AcquireCall.request) := by
  obtain ⟨hanswers, hafter⟩ := run_of_frequent (s := l.settings) (b := none) (fun c hc => by cases hc)
    (requests_frequent hgap)
  exact ⟨(answers_serve h).trans hanswers, (bucket_serve h).trans hafter⟩

end

/-- One token, refilled once in ten thousand seconds. -/
def slowLimiter : RateLimiter := ⟨1, 1 / 10000⟩

/-- Calls for one token of one host. -/
def callsAt (times : List Timestamp) : List AcquireCall := times.map fun at_ => ⟨slowLimiter, "api.test", 1, at_⟩

theorem callsOf_callsAt {times : List Timestamp} (h : times.Pairwise (· ≤ ·)) :
    CallsOf slowLimiter "api.test" (callsAt times) where
  limiter := by
    intro c hc
    obtain ⟨t, -, rfl⟩ := List.mem_map.1 hc
    rfl
  host := by
    intro c hc
    obtain ⟨t, -, rfl⟩ := List.mem_map.1 hc
    rfl
  ordered := List.pairwise_map.2 h

section
variable {l : RateLimiter} {host : String} {calls : List AcquireCall}

/-- The bucket never has more than its capacity or less than nothing, and no window
sees more tokens granted than a full bucket and the refill of the window. -/
theorem rate_bound (h : CallsOf l host calls) (hcap : 0 ≤ l.capacity) (hrate : 0 < l.refillRate)
    (hk : ∀ c ∈ calls, 0 ≤ c.tokens)
    (hgap : calls.IsChain fun c d => d.at_ < c.at_ + bucketTtlSeconds * 1000000) :
    (∀ n b, (serve (some bucketTtlSeconds) .empty (calls.take n)).2.lookup (bucketKey host) = some b →
      0 ≤ b.tokens ∧ b.tokens ≤ l.capacity) ∧
    ∀ start stop : ℚ, start ≤ stop →
      grantedBetween start stop (calls.zip (serve (some bucketTtlSeconds) .empty calls).1) ≤
        l.capacity + l.refillRate * (stop - start) := by
  have hcap' : 0 ≤ l.settings.capacity := Int.cast_nonneg hcap
  have hrate' : 0 ≤ l.settings.rate := hrate.le
  have hempty : Sound l.settings none := fun c hc => by cases hc
  have hamount : ∀ calls' : List AcquireCall, (∀ c ∈ calls', 0 ≤ c.tokens) →
      ∀ r ∈ calls'.map AcquireCall.request, 0 ≤ r.amount := by
    intro calls' hk' r hr
    obtain ⟨c, hc, rfl⟩ := List.mem_map.1 hr
    exact Int.cast_nonneg (hk' c hc)
  constructor
  · intro n b hb
    have htake := h.sublist (List.take_sublist n calls)
    have hafter := (serve_frequent htake (hgap.take n)).2
    have hsound := sound_after hcap' hrate' hempty
      (hamount (calls.take n) fun c hc => hk c (List.mem_of_mem_take hc))
    rw [← hafter, Buckets.bucket, hb] at hsound
    exact hsound b.bucket rfl
  · intro start stop hle
    rw [grantedBetween_eq, (serve_frequent h hgap).1]
    exact takenBetween_le hcap' hrate' hempty (hamount calls hk) h.requests_ordered hle

theorem rate_bound_slow :
    (∀ n b, (serve (some bucketTtlSeconds) .empty ((callsAt [0, 5000000]).take n)).2.lookup
        (bucketKey "api.test") = some b → 0 ≤ b.tokens ∧ b.tokens ≤ slowLimiter.capacity) ∧
    ∀ start stop : ℚ, start ≤ stop →
      grantedBetween start stop ((callsAt [0, 5000000]).zip
          (serve (some bucketTtlSeconds) .empty (callsAt [0, 5000000])).1) ≤
        slowLimiter.capacity + slowLimiter.refillRate * (stop - start) :=
  rate_bound (callsOf_callsAt (by decide)) (by decide) (by norm_num [slowLimiter]) (by simp [callsAt])
    (by simp [callsAt, bucketTtlSeconds])

/-- A refused call may as well not have been made. -/
theorem denied_consumes_nothing (h : CallsOf l host calls) (hrate : 0 ≤ l.refillRate) {i : ℕ}
    (hd : (serve none .empty calls).1[i]? = some false) :
    (serve none .empty (calls.eraseIdx i)).1 = (serve none .empty calls).1.eraseIdx i := by
  have hsettings : 0 ≤ l.settings.rate := hrate
  rw [answers_serve h] at hd ⊢
  rw [answers_serve (h.sublist (List.eraseIdx_sublist _ i)), ← List.eraseIdx_map]
  exact answers_eraseIdx hsettings h.requests_ordered (fun c hc => by cases hc) hd

theorem denied_consumes_nothing_slow :
    (serve none .empty ((callsAt [0, 0, 5000000]).eraseIdx 1)).1 =
      (serve none .empty (callsAt [0, 0, 5000000])).1.eraseIdx 1 :=
  denied_consumes_nothing (callsOf_callsAt (by decide)) (by norm_num [slowLimiter]) (by decide +kernel)

/-- A bucket that is given up is at least a microsecond older than its time to live. -/
theorem elapsed_of_expired {ttl s t : ℕ} (h : keptFor (some ttl) (redisTime s) (redisTime t) = false) :
    (ttl + 1 / 1000000 : ℚ) ≤ redisTime t - redisTime s := by
  rw [keptFor_redisTime, decide_eq_false_iff_not, expiry, milliseconds, milliseconds] at h
  have hle : s + (ttl * 1000000 + 1) ≤ t := by omega
  have hcast : (s : ℚ) + (ttl * 1000000 + 1) ≤ t := by exact_mod_cast hle
  rw [redisTime_eq, redisTime_eq]
  linarith

theorem serve_expiring (h : CallsOf l host calls) (hrate : 0 ≤ l.refillRate) {ttl : ℕ}
    (hfill : (l.capacity : ℚ) ≤ l.refillRate * (ttl + 1 / 1000000)) :
    (serve (some ttl) .empty calls).1 = answers l.settings forever none (calls.map AcquireCall.request) := by
  rw [answers_serve h]
  refine answers_expiring hrate (Set.range redisTime) ?_ (fun c hc => by cases hc) ?_
  · rintro _ ⟨s, rfl⟩ _ ⟨t, rfl⟩ hgone
    exact hfill.trans (mul_le_mul_of_nonneg_left (elapsed_of_expired hgone) hrate)
  · intro r hr
    obtain ⟨c, -, rfl⟩ := List.mem_map.1 hr
    exact ⟨c.at_, rfl⟩

/-- Nobody can tell that buckets expire just when one fills up within its time to live
and the microsecond after. -/
theorem expiry_unobservable_iff (l : RateLimiter) (host : String) (hrate : 0 < l.refillRate) :
    (∀ calls, CallsOf l host calls →
      (serve (some bucketTtlSeconds) .empty calls).1 = (serve none .empty calls).1) ↔
      (l.capacity : ℚ) ≤ l.refillRate * (bucketTtlSeconds + 1 / 1000000) := by
  constructor
  · intro hall
    by_contra hshort
    have hord : CallsOf l host [⟨l, host, l.capacity, 999⟩, ⟨l, host, l.capacity, 3600001000⟩] := by
      refine ⟨by simp, by simp, by simp⟩
    have h := hall _ hord
    rw [answers_serve hord, answers_serve hord] at h
    have helapsed : redisTime 3600001000 - redisTime 999 = bucketTtlSeconds + 1 / 1000000 := by
      norm_num [redisTime_eq, bucketTtlSeconds]
    have hgone : keptFor (some bucketTtlSeconds) (redisTime 999) (redisTime 3600001000) = false := by
      rw [keptFor_redisTime]
      rfl
    refine answers_expiring_ne (s := l.settings) (redisTime_le_iff.2 (by decide)) hgone ?_ h
    rw [helapsed]
    exact not_le.1 hshort
  · intro hfill calls hcalls
    rw [serve_expiring hcalls hrate.le hfill, answers_serve hcalls, keptFor]

theorem expiry_unobservable_slow :
    (∀ calls, CallsOf slowLimiter "api.test" calls →
      (serve (some bucketTtlSeconds) .empty calls).1 = (serve none .empty calls).1) ↔
      (slowLimiter.capacity : ℚ) ≤ slowLimiter.refillRate * (bucketTtlSeconds + 1 / 1000000) :=
  expiry_unobservable_iff slowLimiter "api.test" (by norm_num [slowLimiter])

/-- The second call comes more than an hour after the first: its bucket is full again
only because it has expired. -/
theorem expiry_observed_slow :
    CallsOf slowLimiter "api.test" (callsAt [0, 3601000000]) ∧
      (serve (some bucketTtlSeconds) .empty (callsAt [0, 3601000000])).1 = [true, true] ∧
      (serve none .empty (callsAt [0, 3601000000])).1 = [true, false] :=
  ⟨callsOf_callsAt (by decide), by decide +kernel, by decide +kernel⟩

end

end ApiTesting
