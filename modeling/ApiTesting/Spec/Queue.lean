import ApiTesting.Spec.Rows

/-! `app.queue`: the task stream with its one consumer group, the delayed-retry
set and the chain contexts of runs, as they are kept in Redis. -/

namespace ApiTesting

open Keyed

/-- A worker, and the id its registration gave it. -/
abbrev WorkerId := UUID

structure StreamEntry where
  entryId : ℕ
  taskId : UUID
deriving DecidableEq

inductive Consumer
  | worker (w : WorkerId)
  | reclaimer
deriving DecidableEq

/-- An unacknowledged entry of the group, with its owner and the time of its last delivery. -/
structure Pending where
  entry : StreamEntry
  consumer : Consumer
  deliveredAt : Timestamp

def Pending.id (p : Pending) : ℕ := p.entry.entryId

/-- The stream with its group: the entry at position `i` of `log` has id `i`, and
the first `delivered` entries have been handed to some consumer. -/
structure Stream where
  log : List UUID
  delivered : ℕ
  pending : Table Pending.id
  delivered_le : delivered ≤ log.length
  pending_lt : ∀ p ∈ pending.rows, p.id < delivered

namespace Stream

def empty : Stream where
  log := []
  delivered := 0
  pending := .empty
  delivered_le := le_rfl
  pending_lt := by
    intro p hp
    cases hp

/-- `XADD`. -/
def enqueue (st : Stream) (taskId : UUID) : Stream :=
  { st with
    log := st.log ++ [taskId]
    delivered_le := by
      have := st.delivered_le
      simp only [List.length_append, List.length_singleton]
      omega }

/-- The entries no consumer has seen. -/
def undelivered (st : Stream) : List StreamEntry :=
  (st.log.zipIdx.drop st.delivered).map fun p => ⟨p.2, p.1⟩

theorem undelivered_ids (st : Stream) :
    st.undelivered.map StreamEntry.entryId =
      List.range' st.delivered (st.log.length - st.delivered) := by
  have : (StreamEntry.entryId ∘ fun p : UUID × ℕ => (⟨p.2, p.1⟩ : StreamEntry)) = Prod.snd := rfl
  rw [undelivered, List.map_map, this, List.map_drop, List.zipIdx_map_snd, List.drop_range']
  simp

theorem length_undelivered (st : Stream) :
    st.undelivered.length = st.log.length - st.delivered := by
  simp [undelivered]

/-- The entries of one `XREADGROUP >`: the next `count` undelivered ones. -/
def batch (st : Stream) (count : ℕ) : List StreamEntry := st.undelivered.take count

theorem batch_ids (st : Stream) (count : ℕ) :
    (st.batch count).map StreamEntry.entryId =
      List.range' st.delivered (min count (st.log.length - st.delivered)) := by
  rw [batch, List.map_take, undelivered_ids]
  rcases le_total count (st.log.length - st.delivered) with h | h
  · rw [min_eq_left h, List.take_range'_of_length_ge h]
  · rw [min_eq_right h, List.take_range'_of_length_le h]

theorem length_batch (st : Stream) (count : ℕ) :
    (st.batch count).length = min count (st.log.length - st.delivered) := by
  rw [batch, List.length_take, length_undelivered]

theorem batch_bounds {st : Stream} {count : ℕ} {e : StreamEntry} (h : e ∈ st.batch count) :
    st.delivered ≤ e.entryId ∧ e.entryId < st.delivered + (st.batch count).length := by
  have he : e.entryId ∈ (st.batch count).map StreamEntry.entryId := List.mem_map_of_mem h
  rw [batch_ids, List.mem_range'] at he
  rw [length_batch]
  obtain ⟨i, hi, he⟩ := he
  omega

/-- The state after `XREADGROUP >`: the batch is pending for `consumer`. -/
def consume (st : Stream) (consumer : Consumer) (count : ℕ) (now : Timestamp) : Stream where
  log := st.log
  delivered := st.delivered + (st.batch count).length
  pending :=
    { rows := st.pending.rows ++ (st.batch count).map fun e => ⟨e, consumer, now⟩
      nodup := by
        have hnew : ((st.batch count).map fun e => (⟨e, consumer, now⟩ : Pending)).map Pending.id =
            (st.batch count).map StreamEntry.entryId := by simp [Pending.id]
        rw [List.map_append, hnew, List.nodup_append]
        refine ⟨st.pending.nodup, ?_, ?_⟩
        · rw [batch_ids]
          exact List.nodup_range'
        · intro i hi j hj
          obtain ⟨p, hp, rfl⟩ := List.mem_map.1 hi
          obtain ⟨e, he, rfl⟩ := List.mem_map.1 hj
          have := st.pending_lt p hp
          have := batch_bounds he
          omega }
  delivered_le := by
    have := st.delivered_le
    rw [length_batch]
    omega
  pending_lt := by
    intro p hp
    rcases List.mem_append.1 hp with hp | hp
    · have := st.pending_lt p hp
      omega
    · obtain ⟨e, he, rfl⟩ := List.mem_map.1 hp
      exact (batch_bounds he).2

theorem undelivered_consume (st : Stream) (consumer : Consumer) (count : ℕ) (now : Timestamp) :
    (st.consume consumer count now).undelivered = st.undelivered.drop count := by
  have hlen : (st.batch count).length = min count st.undelivered.length := by
    rw [batch, List.length_take]
  have hdrop : (st.consume consumer count now).undelivered =
      st.undelivered.drop (st.batch count).length := by
    simp only [undelivered, consume, ← List.drop_drop, List.map_drop]
  rw [hdrop, hlen]
  rcases le_total count st.undelivered.length with h | h
  · rw [min_eq_left h]
  · rw [min_eq_right h, List.drop_length, List.drop_of_length_le h]

theorem undelivered_enqueue (st : Stream) (t : UUID) :
    (st.enqueue t).undelivered = st.undelivered ++ [⟨st.log.length, t⟩] := by
  have hle : st.delivered ≤ st.log.zipIdx.length := by
    rw [List.length_zipIdx]
    exact st.delivered_le
  simp only [undelivered, enqueue, List.zipIdx_append, List.drop_append_of_le_length hle, List.map_append]
  simp

/-- `XACK`. -/
def ack (st : Stream) (entryIds : List ℕ) : Stream :=
  { st with
    pending := st.pending.filter fun p => p.id ∉ entryIds
    pending_lt := fun p hp => st.pending_lt p (Table.mem_filter.1 hp).1 }

/-- The entries `XAUTOCLAIM 0` takes: the first idle for at least `minIdle`. How many they are,
`count`, is for Redis to say: at most its `COUNT`, and fewer where it stops its scan before. -/
def stale (st : Stream) (minIdle count : ℕ) (now : Timestamp) : List StreamEntry :=
  ((st.pending.rows.filter fun p => minIdle ≤ now - p.deliveredAt).take count).map Pending.entry

/-- The state after `XAUTOCLAIM`: what was taken has a new owner and is no longer idle. -/
def claimStale (st : Stream) (consumer : Consumer) (minIdle count : ℕ) (now : Timestamp) :
    Stream where
  log := st.log
  delivered := st.delivered
  pending :=
    { rows := st.pending.rows.map fun p =>
        if p.entry ∈ st.stale minIdle count now then ⟨p.entry, consumer, now⟩ else p
      nodup := by
        have : (Pending.id ∘ fun p : Pending =>
            if p.entry ∈ st.stale minIdle count now then ⟨p.entry, consumer, now⟩ else p) =
            Pending.id := by
          funext p
          by_cases h : p.entry ∈ st.stale minIdle count now <;> simp [h, Pending.id]
        rw [List.map_map, this]
        exact st.pending.nodup }
  delivered_le := st.delivered_le
  pending_lt := by
    intro p hp
    obtain ⟨q, hq, rfl⟩ := List.mem_map.1 hp
    have := st.pending_lt q hq
    split <;> exact this

end Stream

/-! The delayed-retry set `retry:pending`. -/

abbrev RetryQueue := Dict UUID Timestamp

def computeBackoffSeconds (retryCount : ℕ) : ℕ := min (2 * 2 ^ retryCount) 60

namespace RetryQueue

/-- `ZADD`. -/
def scheduleRetry (q : RetryQueue) (taskId : UUID) (nextAttemptAt : Timestamp) : RetryQueue :=
  q.put taskId nextAttemptAt

/-- `ZRANGEBYSCORE -inf now LIMIT 0 limit`: by score, then by member. -/
def due (q : RetryQueue) (now : Timestamp) (limit : ℕ) : List UUID :=
  (((q.rows.filter fun p => p.2 ≤ now).insertionSort
    fun a b => a.2 < b.2 ∨ a.2 = b.2 ∧ a.1 ≤ b.1).take limit).map Prod.fst

/-- `ZREM`. -/
def remove (q : RetryQueue) (taskIds : List UUID) : RetryQueue :=
  q.filter fun p => p.1 ∉ taskIds

theorem nodup_keys (q : RetryQueue) : q.keys.Nodup := q.nodup

theorem mem_keys_scheduleRetry {q : RetryQueue} {t u : UUID} {at_ : Timestamp} :
    u ∈ (q.scheduleRetry t at_).keys ↔ u = t ∨ u ∈ q.keys := Dict.mem_keys_put

theorem due_sublist (q : RetryQueue) (now : Timestamp) (limit : ℕ) :
    ∃ l : List (UUID × Timestamp), l.Perm (q.rows.filter fun p => p.2 ≤ now) ∧
      (q.due now limit).Sublist (l.map Prod.fst) :=
  ⟨_, List.perm_insertionSort _ _, (List.take_sublist _ _).map _⟩

theorem nodup_due (q : RetryQueue) (now : Timestamp) (limit : ℕ) : (q.due now limit).Nodup := by
  obtain ⟨l, hl, hsub⟩ := q.due_sublist now limit
  refine List.Nodup.sublist hsub ?_
  rw [(hl.map Prod.fst).nodup_iff]
  exact q.nodup.sublist (List.filter_sublist.map _)

/-- What is due is a member, with a score that has come. -/
theorem mem_due {q : RetryQueue} {now : Timestamp} {limit : ℕ} {t : UUID} (h : t ∈ q.due now limit) :
    ∃ at_, (t, at_) ∈ q.rows ∧ at_ ≤ now := by
  obtain ⟨l, hl, hsub⟩ := q.due_sublist now limit
  obtain ⟨p, hp, rfl⟩ := List.mem_map.1 (hsub.subset h)
  obtain ⟨hp, hnow⟩ := List.mem_filter.1 (hl.mem_iff.1 hp)
  exact ⟨p.2, hp, of_decide_eq_true hnow⟩

theorem mem_keys_of_mem_due {q : RetryQueue} {now : Timestamp} {limit : ℕ} {t : UUID}
    (h : t ∈ q.due now limit) : t ∈ q.keys := by
  obtain ⟨at_, hp, -⟩ := mem_due h
  exact List.mem_map.2 ⟨_, hp, rfl⟩

theorem mem_keys_remove {q : RetryQueue} {ids : List UUID} {t : UUID} :
    t ∈ (q.remove ids).keys ↔ t ∈ q.keys ∧ t ∉ ids := by
  simp only [Table.keys, remove, List.mem_map, Table.mem_filter, decide_eq_true_eq]
  constructor
  · rintro ⟨p, ⟨hp, hid⟩, rfl⟩
    exact ⟨⟨p, hp, rfl⟩, hid⟩
  · rintro ⟨⟨p, hp, rfl⟩, hid⟩
    exact ⟨p, ⟨hp, hid⟩, rfl⟩

/-- `pop_due`, run without interruption. -/
def popDue (q : RetryQueue) (now : Timestamp) (limit : ℕ) : List UUID × RetryQueue :=
  (q.due now limit, q.remove (q.due now limit))

end RetryQueue

/-! The chain contexts `run:...:context`. -/

/-- `str` of a UUID. -/
def uuidText (u : UUID) : String :=
  String.ofList (hex 8 (u / 16 ^ 24) ++ ['-'] ++ hex 4 (u / 16 ^ 20) ++ ['-'] ++
    hex 4 (u / 16 ^ 16) ++ ['-'] ++ hex 4 (u / 16 ^ 12) ++ ['-'] ++ hex 12 u)

def contextTtlSeconds : ℕ := 24 * 60 * 60

structure ContextHash where
  values : Dict String String
  expiresAt : Option ℕ

abbrev RunContext := Dict String ContextHash

namespace RunContext

def contextKey (testRunId : UUID) (dataRowIndex : Option ℕ) : String :=
  match dataRowIndex with
  | none => "run:" ++ uuidText testRunId ++ ":context"
  | some i => "run:" ++ uuidText testRunId ++ ":row:" ++ toString i ++ ":context"

/-- The hash at a key, unless it has expired. -/
def live (c : RunContext) (now : Timestamp) (key : String) : Option ContextHash :=
  (c.lookup key).filter fun h => ApiTesting.unexpired now h.expiresAt

/-- `HGETALL`. -/
def getAll (c : RunContext) (now : Timestamp) (testRunId : UUID) (dataRowIndex : Option ℕ) :
    Dict String String :=
  match c.live now (contextKey testRunId dataRowIndex) with
  | some h => h.values
  | none => .empty

/-- `HSET`, which keeps a time to live that is set. -/
def hset (c : RunContext) (now : Timestamp) (key : String) (vars : Dict String String) :
    RunContext :=
  match c.live now key with
  | some h => c.put key { h with values := h.values.update vars }
  | none => c.put key ⟨Dict.update .empty vars, none⟩

/-- `EXPIRE`. -/
def expire (c : RunContext) (now : Timestamp) (key : String) : RunContext :=
  match c.live now key with
  | some h => c.put key { h with expiresAt := some (expiry now contextTtlSeconds) }
  | none => c

/-- The values stored at a key, expired or not. -/
def valuesAt (contexts : RunContext) (key : String) : Dict String String :=
  ((contexts.lookup key).map ContextHash.values).getD .empty

end RunContext

end ApiTesting
