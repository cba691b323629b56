import ApiTesting.Spec.Sweepers
import ApiTesting.Lib.Raises

/-! What a sweep of the pending entries does, whichever of its calls raise. A round
changes the stream by a fresh copy of its entry and by taking the entry off the
pending list, in this order; so an entry is there in one form or the other at any
time, and those that were not claimed are not touched. -/

namespace ApiTesting

open Keyed Fallible

/-- Both calls of the round came back. -/
def ReclaimCalls.returned (c : ReclaimCalls) : Bool := c.enqueue.returned && c.ack.returned

/-- The round has taken its entry off the pending list. -/
def ReclaimCalls.acked (c : ReclaimCalls) : Bool := c.enqueue.returned && c.ack.tookEffect

/-- The `XACK` took effect although the call raised. -/
def ReclaimCalls.unnoticed (c : ReclaimCalls) : Bool := c.enqueue.returned && c.ack = .raisedAfter

/-- The stream after one round. -/
def Stream.afterReclaim (st : Stream) (entry : StreamEntry) (c : ReclaimCalls) : Stream :=
  let enqueued := if c.enqueue.tookEffect then st.enqueue entry.taskId else st
  if c.acked then enqueued.ack [entry.entryId] else enqueued

section
variable (calls : ℕ → ReclaimCalls)

/-- The claimed entries a fresh copy was made of. -/
def copied (entries : List StreamEntry) : List StreamEntry :=
  entries.filter fun e => (calls e.entryId).enqueue.tookEffect

/-- The claimed entries that are copied and no longer pending. -/
def acked (entries : List StreamEntry) : List StreamEntry := entries.filter fun e => (calls e.entryId).acked

/-- The claimed entries whose `XACK` took effect although the call raised. -/
def unnoticed (entries : List StreamEntry) : List StreamEntry := entries.filter fun e => (calls e.entryId).unnoticed

/-- The claimed entries whose calls both came back. -/
def moved (entries : List StreamEntry) : List StreamEntry := entries.filter fun e => (calls e.entryId).returned

end

/-- The stream after the rounds for some of its entries. -/
structure Rounds (calls : ℕ → ReclaimCalls) (entries : List StreamEntry) (st st' : Stream) : Prop where
  log : st'.log = st.log ++ (copied calls entries).map StreamEntry.taskId
  delivered : st'.delivered = st.delivered
  pending : st'.pending.rows =
    st.pending.rows.filter fun p => p.id ∉ (acked calls entries).map StreamEntry.entryId

section
variable {calls : ℕ → ReclaimCalls} {st st' : Stream}

theorem reclaim_eq (entry : StreamEntry) (c : ReclaimCalls) (st : Stream) :
    ReclaimM.reclaim entry c st = (.ok c.returned, st.afterReclaim entry c) := by
  obtain ⟨enqueue, ack⟩ := c
  cases enqueue <;> cases ack <;> rfl

theorem rounds_afterReclaim (entry : StreamEntry) (st : Stream) :
    Rounds calls [entry] st (st.afterReclaim entry (calls entry.entryId)) := by
  have heffect : (calls entry.entryId).acked → (calls entry.entryId).enqueue.tookEffect := by
    rcases calls entry.entryId with ⟨enqueue, ack⟩
    cases enqueue <;> simp [ReclaimCalls.acked, Call.returned, Call.tookEffect]
  unfold Stream.afterReclaim
  by_cases ha : (calls entry.entryId).acked
  · have he := heffect ha
    refine ⟨by simp [copied, he, ha, Stream.ack, Stream.enqueue], by simp [he, ha, Stream.ack, Stream.enqueue], ?_⟩
    simp [acked, ha, he, Stream.ack, Stream.enqueue, Table.filter]
  · by_cases he : (calls entry.entryId).enqueue.tookEffect
    · exact ⟨by simp [copied, he, ha, Stream.enqueue], by simp [he, ha, Stream.enqueue],
        by simp [acked, ha, he, Stream.enqueue]⟩
    · exact ⟨by simp [copied, he, ha], by simp [he, ha], by simp [acked, ha, he]⟩

theorem rounds_nil (st : Stream) : Rounds calls [] st st :=
  ⟨by simp [copied], rfl, by simp [acked]⟩

theorem Rounds.append {entries entries' : List StreamEntry} {st'' : Stream} (h : Rounds calls entries st st')
    (h' : Rounds calls entries' st' st'') : Rounds calls (entries ++ entries') st st'' where
  log := by rw [h'.log, h.log, copied, copied, copied, List.filter_append, List.map_append, List.append_assoc]
  delivered := h'.delivered.trans h.delivered
  pending := by
    rw [h'.pending, h.pending, List.filter_filter]
    refine List.filter_congr fun p _ => ?_
    rw [acked, acked, acked, List.filter_append, List.map_append, ← Bool.decide_and, decide_eq_decide,
      List.mem_append, not_or, and_comm]

/-- The loop never raises, and counts the rounds whose calls both came back. -/
theorem reclaimAll_eq (entries : List StreamEntry) (n : ℕ) (st : Stream) :
    ∃ st', ReclaimM.reclaimAll calls entries n st = (.ok (n + (moved calls entries).length), st') ∧
      Rounds calls entries st st' := by
  induction entries generalizing n st with
  | nil => exact ⟨st, rfl, rounds_nil st⟩
  | cons e entries ih =>
    have hround := reclaim_eq e (calls e.entryId) st
    obtain ⟨st', hrest, hrounds⟩ :=
      ih (if (calls e.entryId).returned then n + 1 else n) (st.afterReclaim e (calls e.entryId))
    refine ⟨st', ?_, (rounds_afterReclaim e st).append hrounds⟩
    rw [ReclaimM.reclaimAll, bind_of_ok _ hround, hrest, moved, moved, List.filter_cons]
    by_cases hr : (calls e.entryId).returned
    · simp only [hr, if_true, List.length_cons]
      congr 2
      omega
    · simp only [hr, if_false, Bool.false_eq_true]

/-- The entries whose rounds are run: the claimed ones, where the claim comes back. -/
def claimed (minIdleMs count : ℕ) (now : Timestamp) (claim : Call) (st : Stream) : List StreamEntry :=
  if claim.returned then st.stale (minIdleMs * 1000) count now else []

/-- The stream after the claim. -/
def afterClaim (minIdleMs count : ℕ) (now : Timestamp) (claim : Call) (st : Stream) : Stream :=
  if claim.tookEffect then st.claimStale .reclaimer (minIdleMs * 1000) count now else st

theorem sweepOnce_eq (minIdleMs batchSize found : ℕ) (now : Timestamp) (claim : Call) (st : Stream) :
    ∃ st', ReclaimM.sweepOnce minIdleMs batchSize found now claim calls st =
        (if claim.returned then .ok (moved calls (claimed minIdleMs (min found batchSize) now claim st)).length
          else .error callError, st') ∧
      Rounds calls (claimed minIdleMs (min found batchSize) now claim st) (afterClaim minIdleMs (min found batchSize) now claim st) st' := by
  cases claim with
  | ok =>
    have hclaim : ReclaimM.claimStale minIdleMs batchSize found now .ok st =
      (.ok (st.stale (minIdleMs * 1000) (min found batchSize) now),
        st.claimStale .reclaimer (minIdleMs * 1000) (min found batchSize) now) := rfl
    obtain ⟨st', hrest, hrounds⟩ := reclaimAll_eq (st.stale (minIdleMs * 1000) (min found batchSize) now) 0
      (st.claimStale .reclaimer (minIdleMs * 1000) (min found batchSize) now)
    refine ⟨st', ?_, hrounds⟩
    rw [ReclaimM.sweepOnce, bind_of_ok _ hclaim, hrest, Nat.zero_add]
    rfl
  | raisedBefore =>
    have hclaim : ReclaimM.claimStale minIdleMs batchSize found now .raisedBefore st = (.error callError, st) := rfl
    refine ⟨st, ?_, rounds_nil st⟩
    rw [ReclaimM.sweepOnce, bind_of_error _ hclaim]
    rfl
  | raisedAfter =>
    have hclaim : ReclaimM.claimStale minIdleMs batchSize found now .raisedAfter st =
      (.error callError, st.claimStale .reclaimer (minIdleMs * 1000) (min found batchSize) now) := rfl
    refine ⟨_, ?_, rounds_nil _⟩
    rw [ReclaimM.sweepOnce, bind_of_error _ hclaim]
    rfl

section
variable {minIdleMs count : ℕ} {now : Timestamp} {claim : Call} {p : Pending} {e : StreamEntry}

theorem mem_stale_of_mem_claimed (h : e ∈ claimed minIdleMs count now claim st) :
    e ∈ st.stale (minIdleMs * 1000) count now := by
  unfold claimed at h
  split at h
  · exact h
  · cases h

theorem log_afterClaim : (afterClaim minIdleMs count now claim st).log = st.log := by
  unfold afterClaim
  split <;> rfl

/-- The claim keeps every pending entry, and the whole record of one it does not take. -/
theorem pending_afterClaim (hp : p ∈ st.pending.rows) :
    (∃ q ∈ (afterClaim minIdleMs count now claim st).pending.rows, q.entry = p.entry) ∧
      (p.entry ∉ st.stale (minIdleMs * 1000) count now →
        p ∈ (afterClaim minIdleMs count now claim st).pending.rows) := by
  unfold afterClaim
  split
  · have hmem : (if p.entry ∈ st.stale (minIdleMs * 1000) count now then ⟨p.entry, .reclaimer, now⟩ else p) ∈
        (st.claimStale .reclaimer (minIdleMs * 1000) count now).pending.rows := List.mem_map_of_mem hp
    constructor
    · refine ⟨_, hmem, ?_⟩
      split <;> rfl
    · intro h
      rwa [if_neg h] at hmem
  · exact ⟨⟨p, hp, rfl⟩, fun _ => hp⟩

/-- What is claimed has been idle for long enough; no other entry has its id. -/
theorem idle_of_mem_stale {minIdle count : ℕ} (hp : p ∈ st.pending.rows) (he : e ∈ st.stale minIdle count now)
    (hid : p.id = e.entryId) : e = p.entry ∧ minIdle ≤ now - p.deliveredAt := by
  obtain ⟨q, hq, rfl⟩ := List.mem_map.1 he
  obtain ⟨hq, hidle⟩ := List.mem_filter.1 (List.mem_of_mem_take hq)
  obtain rfl := List.inj_on_of_nodup_map st.pending.nodup hp hq hid
  exact ⟨rfl, of_decide_eq_true hidle⟩

theorem mem_pending_of_notMem_acked {entries : List StreamEntry} (h : Rounds calls entries st st')
    (hp : p ∈ st.pending.rows) (hid : ∀ e ∈ acked calls entries, p.id ≠ e.entryId) : p ∈ st'.pending.rows := by
  rw [h.pending, List.mem_filter]
  refine ⟨hp, decide_eq_true fun hmem => ?_⟩
  obtain ⟨e, he, hk⟩ := List.mem_map.1 hmem
  exact hid e he hk.symm

/-- An entry of the log that was not there before has not been delivered. -/
theorem mem_undelivered_of_copied {entries : List StreamEntry} (h : Rounds calls entries st st')
    (he : e ∈ copied calls entries) :
    ∃ fresh ∈ st'.undelivered, fresh.taskId = e.taskId ∧ st.log.length ≤ fresh.entryId := by
  obtain ⟨i, hi, hget⟩ := List.getElem_of_mem (List.mem_map_of_mem (f := StreamEntry.taskId) he)
  have hlen : st.log.length + i < st'.log.length := by
    rw [h.log, List.length_append]
    omega
  have htask : st'.log[st.log.length + i] = e.taskId := by
    simp only [h.log]
    rw [List.getElem_append_right (Nat.le_add_right _ _)]
    simpa using hget
  refine ⟨⟨st.log.length + i, e.taskId⟩, ?_, rfl, Nat.le_add_right _ _⟩
  refine List.mem_map.2 ⟨(e.taskId, st.log.length + i), ?_, rfl⟩
  rw [List.mem_iff_getElem]
  have hle := st.delivered_le
  have hdel := h.delivered
  refine ⟨st.log.length + i - st'.delivered, ?_, ?_⟩
  · rw [List.length_drop, List.length_zipIdx]
    omega
  · have hidx : st'.delivered + (st.log.length + i - st'.delivered) = st.log.length + i := by omega
    simp only [List.getElem_drop, List.getElem_zipIdx, hidx, htask, Nat.zero_add]

/-- An entry is taken off the pending list only once there is a copy of it. -/
theorem copied_of_acked {entries : List StreamEntry} (h : e ∈ acked calls entries) : e ∈ copied calls entries := by
  obtain ⟨he, hacked⟩ := List.mem_filter.1 h
  refine List.mem_filter.2 ⟨he, ?_⟩
  rcases hc : calls e.entryId with ⟨enqueue, ack⟩
  rw [hc] at hacked
  cases enqueue with
  | ok => rfl
  | raisedBefore => cases hacked
  | raisedAfter => rfl

theorem acked_cases (c : ReclaimCalls) :
    (c.acked = true ∧ (c.returned = true ∧ c.unnoticed = false ∨ c.returned = false ∧ c.unnoticed = true)) ∨
      (c.acked = false ∧ c.returned = false ∧ c.unnoticed = false) := by
  obtain ⟨enqueue, ack⟩ := c
  cases enqueue <;> cases ack <;> decide

/-- What is counted is what was enqueued and acked, as far as the calls tell. -/
theorem length_moved_add (entries : List StreamEntry) :
    (moved calls entries).length + (unnoticed calls entries).length = (acked calls entries).length := by
  unfold moved unnoticed acked
  induction entries with
  | nil => rfl
  | cons e entries ih =>
    rw [List.filter_cons, List.filter_cons, List.filter_cons]
    rcases acked_cases (calls e.entryId) with ⟨ha, ⟨hr, hu⟩ | ⟨hr, hu⟩⟩ | ⟨ha, hr, hu⟩
    · rw [if_pos hr, if_neg (by simp [hu]), if_pos ha, List.length_cons, List.length_cons]
      omega
    · rw [if_neg (by simp [hr]), if_pos hu, if_pos ha, List.length_cons, List.length_cons]
      omega
    · rw [if_neg (by simp [hr]), if_neg (by simp [hu]), if_neg (by simp [ha])]
      exact ih

/-- No task is lost: its pending entry is still there, or a fresh one is. -/
theorem kept_of_rounds
    (h : Rounds calls (claimed minIdleMs count now claim st) (afterClaim minIdleMs count now claim st) st')
    (hp : p ∈ st.pending.rows) :
    (∃ q ∈ st'.pending.rows, q.entry = p.entry) ∨
      ∃ fresh ∈ st'.undelivered, fresh.taskId = p.entry.taskId ∧ st.log.length ≤ fresh.entryId := by
  obtain ⟨q, hq, hqp⟩ := (pending_afterClaim hp).1
  by_cases ha : ∃ e ∈ acked calls (claimed minIdleMs count now claim st), q.id = e.entryId
  · obtain ⟨e, he, hid⟩ := ha
    have hpe : p.id = e.entryId := by rw [Pending.id, ← hqp, ← hid, Pending.id]
    obtain ⟨rfl, -⟩ := idle_of_mem_stale hp (mem_stale_of_mem_claimed (List.mem_filter.1 he).1) hpe
    have hfresh := mem_undelivered_of_copied h (copied_of_acked he)
    rw [log_afterClaim] at hfresh
    exact .inr hfresh
  · exact .inl ⟨q, mem_pending_of_notMem_acked h hq fun e he hid => ha ⟨e, he, hid⟩, hqp⟩

/-- What has not been idle for long enough keeps its owner and its idle time. -/
theorem untouched_of_rounds
    (h : Rounds calls (claimed minIdleMs count now claim st) (afterClaim minIdleMs count now claim st) st')
    (hp : p ∈ st.pending.rows) (hidle : now - p.deliveredAt < minIdleMs * 1000) : p ∈ st'.pending.rows := by
  have hfresh : ∀ e ∈ st.stale (minIdleMs * 1000) count now, p.id ≠ e.entryId := by
    intro e he hid
    exact absurd hidle (not_lt.2 (idle_of_mem_stale hp he hid).2)
  refine mem_pending_of_notMem_acked h ((pending_afterClaim hp).2 fun hmem => hfresh _ hmem rfl) fun e he => ?_
  exact hfresh e (mem_stale_of_mem_claimed (List.mem_filter.1 he).1)

end

/-- Whatever raises, and however many entries Redis claims, a sweep leaves every task with
its pending entry or a fresh one, leaves alone what has not been idle for long enough, makes
at most one copy of a claimed entry, and returns the number of rounds whose calls both came
back: the entries that are copied and no longer pending, less those whose `XACK` raised. -/
theorem reclaim_sweep (minIdleMs batchSize found : ℕ) (now : Timestamp) (claim : Call) (calls : ℕ → ReclaimCalls)
    (st : Stream) :
    ∃ result st', ReclaimM.sweepOnce minIdleMs batchSize found now claim calls st = (result, st') ∧
      (∀ p ∈ st.pending.rows, (∃ q ∈ st'.pending.rows, q.entry = p.entry) ∨
        ∃ fresh ∈ st'.undelivered, fresh.taskId = p.entry.taskId ∧ st.log.length ≤ fresh.entryId) ∧
      (∀ p ∈ st.pending.rows, now - p.deliveredAt < minIdleMs * 1000 → p ∈ st'.pending.rows) ∧
      (∃ copies : List StreamEntry, copies.Sublist (claimed minIdleMs (min found batchSize) now claim st) ∧
        st'.log = st.log ++ copies.map StreamEntry.taskId) ∧
      (result = if claim.returned then .ok (moved calls (claimed minIdleMs (min found batchSize) now claim st)).length
        else .error callError) ∧
      (moved calls (claimed minIdleMs (min found batchSize) now claim st)).length +
          (unnoticed calls (claimed minIdleMs (min found batchSize) now claim st)).length =
        (acked calls (claimed minIdleMs (min found batchSize) now claim st)).length := by
  obtain ⟨st', hsweep, hrounds⟩ := sweepOnce_eq minIdleMs batchSize found now claim st
  have hlog : st'.log = st.log ++ (copied calls (claimed minIdleMs (min found batchSize) now claim st)).map StreamEntry.taskId := by
    rw [hrounds.log, log_afterClaim]
  exact ⟨_, st', hsweep, fun p hp => kept_of_rounds hrounds hp,
    fun p hp hidle => untouched_of_rounds hrounds hp hidle, ⟨_, List.filter_sublist, hlog⟩, rfl, length_moved_add _⟩

end

/-- One task of a dead worker, idle for longer than any sweep waits. -/
def deadWorker : Stream := (Stream.empty.enqueue 7).consume (.worker 0) 1 0

/-- Its `XACK` reaches Redis, but the reply is lost. -/
def lostReply (_ : ℕ) : ReclaimCalls := ⟨.ok, .raisedAfter⟩

/-- The entry is copied and no longer pending, and the sweep returns zero. -/
theorem reclaim_sweep_uncounted :
    ∃ st', ReclaimM.sweepOnce 360000 50 1 360000000 .ok lostReply deadWorker = (.ok 0, st') ∧
      st'.log = [7, 7] ∧ st'.pending.rows = [] ∧
      (acked lostReply (claimed 360000 1 360000000 .ok deadWorker)).length = 1 :=
  ⟨_, by rfl, by rfl, by rfl, by rfl⟩

end ApiTesting
