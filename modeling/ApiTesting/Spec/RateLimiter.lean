import ApiTesting.Spec.Queue
import Mathlib.Algebra.Order.Ring.Rat

/-! `app.queue.rate_limiter`: the token bucket of a host, with exact arithmetic in
place of floating point. A Redis script runs without interruption, on a clock of
whole microseconds. -/

namespace ApiTesting

open Keyed

def bucketTtlSeconds : ℕ := 3600

/-- The hash of a bucket, and when its key expires. -/
structure BucketHash where
  tokens : ℚ
  timestamp : ℚ
  expiresAt : Option ℕ

abbrev Buckets := Dict String BucketHash

def bucketKey (host : String) : String := "ratelimit:" ++ host

/-- `TIME`, the seconds and the microseconds of the second put together. -/
def redisTime (now : Timestamp) : ℚ := (now / 1000000 : ℕ) + (now % 1000000 : ℕ) / 1000000

/-- `_TOKEN_BUCKET_SCRIPT` on the tokens and timestamp it reads: whether the request is
allowed, and what it writes back. -/
def tokenBucketScript (capacity refillRate requested now : ℚ) (bucket : Option (ℚ × ℚ)) : Bool × ℚ × ℚ :=
  let (tokens, timestamp) :=
    match bucket with
    | some (tokens, timestamp) => (tokens, timestamp)
    | none => (capacity, now)
  let elapsed := max 0 (now - timestamp)
  let tokens := min capacity (tokens + elapsed * refillRate)
  if requested ≤ tokens then (true, tokens - requested, now) else (false, tokens, now)

/-- The hash at a key, unless it has expired. -/
def Buckets.live (redis : Buckets) (now : Timestamp) (key : String) : Option BucketHash :=
  (redis.lookup key).filter fun b => unexpired now b.expiresAt

structure RateLimiter where
  capacity : ℤ
  refillRate : ℚ

namespace RateLimiter

/-- The script with `EXPIRE bucket_key ttl_seconds`, or without the `EXPIRE`. -/
def acquire (l : RateLimiter) (ttlSeconds : Option ℕ) (host : String) (tokens : ℤ) (now : Timestamp)
    (redis : Buckets) : Bool × Buckets :=
  let bucket := (redis.live now (bucketKey host)).map fun b => (b.tokens, b.timestamp)
  let (allowed, left, stamp) := tokenBucketScript l.capacity l.refillRate tokens (redisTime now) bucket
  (allowed, redis.put (bucketKey host) ⟨left, stamp, ttlSeconds.map (expiry now)⟩)

def tryAcquire (l : RateLimiter) (host : String) (tokens : ℤ) (now : Timestamp) (redis : Buckets) :
    Bool × Buckets :=
  l.acquire (some bucketTtlSeconds) host tokens now redis

end RateLimiter

/-- A call of `try_acquire` by some instance. -/
structure AcquireCall where
  limiter : RateLimiter
  host : String
  tokens : ℤ
  at_ : Timestamp

/-- Calls served one after the other: the answers, and what is left in Redis. -/
def serve (ttlSeconds : Option ℕ) : Buckets → List AcquireCall → List Bool × Buckets
  | redis, [] => ([], redis)
  | redis, c :: calls =>
    let first := c.limiter.acquire ttlSeconds c.host c.tokens c.at_ redis
    let rest := serve ttlSeconds first.2 calls
    (first.1 :: rest.1, rest.2)

end ApiTesting
