import ApiTesting.Proofs.Ledger
import ApiTesting.Proofs.Scheduling

/-! The retry budget. `process_task` computes the attempt number and the decision
to retry from a `retry_count` it has read and that another process writes back
later. As long as no attempt of a task starts while another one is in flight, the
task goes through the stages of `Life` and its attempts are numbered 1, 2, ... -/

namespace ApiTesting

open Keyed Machine Pool

/-- No call to Redis or Postgres fails, no process dies and nothing is reclaimed. -/
def Action.faultless : Action → Bool
  | .slot _ _ (.send _ _ call) => call = .ok
  | .slot _ _ (.settle _ _ call expireCall) => call = .ok && expireCall = .ok
  | .slot _ _ .callRaised => false
  | .write _ _ call => call = .ok
  | .ack _ call => call = .ok
  | .crash _ => false
  | .retryRemove call => call = .ok
  | .retryEnqueue call => call = .ok
  | .retryReschedule _ call => call = .ok
  | .reclaim _ _ _ => false
  | .reclaimEnqueue _ => false
  | .reclaimAck _ => false
  | _ => true

/-- An entry whose attempt has sent no request yet. -/
def Slot.unsent (slot : Slot) : List UUID :=
  match slot.phase with
  | .delivered => [slot.entry.taskId]
  | .loaded v => [v.testTask.id]
  | .resolved v _ => [v.testTask.id]
  | _ => []

def Slot.executing (slot : Slot) : List UUID :=
  match slot.phase with
  | .executing v _ => [v.testTask.id]
  | _ => []

/-- The places from which `t` may still be attempted. -/
def System.unsent (s : System) (t : UUID) : ℕ :=
  (s.stream.undelivered.map StreamEntry.taskId).count t + s.scheduled t +
    (held (WorkerState.bySlot Slot.unsent) s.workers).count t

def System.executing (s : System) (t : UUID) : ℕ := (held (WorkerState.bySlot Slot.executing) s.workers).count t

def System.sentFor (s : System) (t : UUID) : ℕ := s.sent.countP fun q => q.testTaskId = t

def System.attemptsOf (s : System) (t : UUID) : Multiset Attempt :=
  s.attempts.filter fun b => b.taskId = t

def Database.attemptNumbers (db : Database) (t : UUID) : List ℕ :=
  (db.requestResults.filter fun q => q.testTaskId = t).map RequestResult.attemptNumber

/-- How many attempts a row accounts for: the last one of a completed task is not a retry. -/
def TestTask.attempts (row : TestTask) : ℕ :=
  if row.status = .completed then row.retryCount + 1 else row.retryCount

/-- The stages of a task, over the attempts of it in flight, the places it may still
be attempted from, the requests on their way and the requests sent. -/
inductive Life (row : TestTask) : Multiset Attempt → ℕ → ℕ → ℕ → Prop
  | waiting {u n : ℕ} : row.status.terminal = false → row.retryCount ≤ row.maxRetries → u ≤ 1 →
      n + u ≤ row.retryCount + 1 → Life row 0 u 0 n
  | running {v : TaskView} {u x n : ℕ} : v.testTask = row → row.status.terminal = false →
      row.retryCount ≤ row.maxRetries → u + x ≤ 1 → n + u ≤ row.retryCount + 1 →
      Life row {.running v} u x n
  | retrying {o : TaskOutcome} {u n : ℕ} : row.status.terminal = false →
      row.retryCount < row.maxRetries → o.attemptNumber = row.retryCount + 1 →
      o.newStatus = .retrying → o.retryCount = row.retryCount + 1 → u ≤ 1 →
      n + u ≤ row.retryCount + 2 → Life row {.ended o} u 0 n
  | concluding {o : TaskOutcome} {n : ℕ} : row.status.terminal = false →
      row.retryCount ≤ row.maxRetries → o.attemptNumber = row.retryCount + 1 →
      (o.newStatus = .completed ∧ o.retryCount = row.retryCount ∨
        o.newStatus = .failed ∧ o.retryCount = row.retryCount + 1) →
      n ≤ row.retryCount + 1 → Life row {.ended o} 0 0 n
  | done {n : ℕ} : row.status.terminal → n ≤ row.attempts → row.attempts ≤ row.maxRetries + 1 →
      Life row 0 0 0 n

theorem Life.of_le {row : TestTask} {m : Multiset Attempt} {u u' x n : ℕ} (h : Life row m u x n)
    (hu : u' ≤ u) : Life row m u' x n := by
  cases h with
  | waiting h1 h2 h3 h4 => exact .waiting h1 h2 (by omega) (by omega)
  | running h1 h2 h3 h4 h5 => exact .running h1 h2 h3 (by omega) (by omega)
  | retrying h1 h2 h3 h4 h5 h6 h7 => exact .retrying h1 h2 h3 h4 h5 (by omega) (by omega)
  | concluding h1 h2 h3 h4 h5 =>
    obtain rfl : u' = 0 := by omega
    exact .concluding h1 h2 h3 h4 h5
  | done h1 h2 h3 =>
    obtain rfl : u' = 0 := by omega
    exact .done h1 h2 h3

/-- At every stage the requests sent are within the budget. -/
theorem Life.sent_le {row : TestTask} {m : Multiset Attempt} {u x n : ℕ} (h : Life row m u x n) :
    n ≤ row.maxRetries + 1 := by
  cases h with
  | waiting => omega
  | running => omega
  | retrying => omega
  | concluding => omega
  | done => omega

/-- The task is at some stage of its life, and its results are numbered 1, 2, ... -/
def Budget (t : UUID) (s : System) : Prop :=
  ∃ row, s.stores.db.testTasks.get? t = some row ∧
    Life row (s.attemptsOf t) (s.unsent t) (s.executing t) (s.sentFor t) ∧
    s.stores.db.attemptNumbers t = List.range' 1 row.attempts

section
variable {lib : Libraries} {rateLimiter : Bool} {s₀ s s' : System} {a : Action} {t : UUID}

/-- The attempt that runs in a slot is the one its task is running. -/
theorem Life.running_inv {row : TestTask} {v : TaskView} {m : Multiset Attempt} {u x n : ℕ}
    (h : Life row m u x n) (hm : .running v ∈ m) : v.testTask = row ∧ m = {.running v} ∧
      row.status.terminal = false ∧ row.retryCount ≤ row.maxRetries ∧ u + x ≤ 1 ∧
      n + u ≤ row.retryCount + 1 := by
  cases h with
  | waiting => simp at hm
  | done => simp at hm
  | retrying => simp at hm
  | concluding => simp at hm
  | running h1 h2 h3 h4 h5 =>
    cases Multiset.mem_singleton.1 hm
    exact ⟨h1, rfl, h2, h3, h4, h5⟩

/-- A task with a place to be attempted from, and no attempt of it in flight. -/
theorem Life.waiting_inv {row : TestTask} {m : Multiset Attempt} {u x n : ℕ} (h : Life row m u x n)
    (hm : m = 0) (hu : 0 < u) : x = 0 ∧ row.status.terminal = false ∧
      row.retryCount ≤ row.maxRetries ∧ u ≤ 1 ∧ n + u ≤ row.retryCount + 1 := by
  cases h with
  | waiting h1 h2 h3 h4 => exact ⟨rfl, h1, h2, h3, h4⟩
  | done => exact absurd hu (lt_irrefl 0)
  | running => exact absurd hm (Multiset.singleton_ne_zero _)
  | retrying => exact absurd hm (Multiset.singleton_ne_zero _)
  | concluding => exact absurd hm (Multiset.singleton_ne_zero _)

/-- The rate limiter puts a task on the retry set at most once. -/
theorem count_keys_of_limited {v : TaskView} {st : Stores} {r : Except Exn Unit × Stores} (h : Limited v st r) :
    r.2.retryPending.keys.count t ≤ st.retryPending.keys.count t + if v.testTask.id = t then 1 else 0 := by
  cases h with
  | passed => exact Nat.le_add_right _ _
  | deferred => exact count_keys_scheduleRetry_le _ t _ _
  | raised _ hst =>
    rcases hst with rfl | ⟨at_, rfl⟩
    · exact Nat.le_add_right _ _
    · exact count_keys_scheduleRetry_le _ t _ _

theorem countP_requests_le (v : TaskView) (chain : Dict String String) :
    (v.requests chain).countP (fun q => q.testTaskId = t) ≤ if v.testTask.id = t then 1 else 0 := by
  unfold TaskView.requests
  split
  · simp [List.countP_cons]
  · simp

/-- The verdict on the running attempt of a task, with what it puts on the retry set. -/
theorem Life.of_verdict {v : TaskView} {write : RedisWrite} {o : TaskOutcome} {st : Stores} {now : Timestamp}
    {u n : ℕ} (hcon : Concludes v write o) (ht : v.testTask.id = t)
    (h1 : v.testTask.status.terminal = false) (h2 : v.testTask.retryCount ≤ v.testTask.maxRetries)
    (hn : n ≤ v.testTask.retryCount + 1)
    (hU : u + st.retryPending.keys.count t =
      (st.perform v write now .ok .ok).2.retryPending.keys.count t) :
    Life v.testTask {.ended o} u 0 n := by
  rw [Stores.perform_retryPending] at hU
  cases hcon.verdict with
  | completed hno hs hrc =>
    obtain rfl : u = 0 := by
      cases write with
      | scheduleRetry at_ => exact absurd rfl (hno at_)
      | _ => simpa using hU
    exact .concluding h1 h2 hcon.attemptNumber (.inl ⟨hs, hrc⟩) hn
  | @retrying at_ _ hlt hs hrc =>
    have hkeys := count_keys_scheduleRetry_le st.retryPending t v.testTask.id at_
    rw [if_pos ht] at hkeys
    simp only [Call.tookEffect, if_true] at hU
    exact .retrying h1 hlt hcon.attemptNumber hs hrc (by omega) (by omega)
  | failed hle hs hrc =>
    obtain rfl : u = 0 := by simpa using hU
    exact .concluding h1 h2 hcon.attemptNumber (.inr ⟨hs, hrc⟩) hn

section
attribute [local simp] Slot.attempts Slot.unsent Slot.executing Phase.attempts Attempt.taskId

/-- One step of one attempt, over the four measures of its task. -/
theorem Life.slotMove {row : TestTask} {w : WorkerId} {i : ℕ} {st : Stores} {slot : Slot} {sa : SlotAction}
    {e : SlotEffect} {m m' : Multiset Attempt} {u u' x x' n : ℕ}
    (hm : SlotMove lib rateLimiter w st slot sa e) (hrow : st.db.testTasks.get? t = some row)
    (hf : (Action.slot w i sa).faultless) (h : Life row m u x n)
    (halone : sa = .load → slot.entry.taskId = t → m = 0)
    (hA : m' + ↑(slot.attempts.filter fun b => b.taskId = t) =
      m + ↑(e.phase.attempts.filter fun b => b.taskId = t))
    (hU : u' + st.retryPending.keys.count t + slot.unsent.count t =
      u + e.stores.retryPending.keys.count t +
        (Slot.unsent { slot with phase := e.phase }).count t)
    (hX : x' + slot.executing.count t =
      x + (Slot.executing { slot with phase := e.phase }).count t)
    (hmem : ∀ b ∈ slot.attempts, b.taskId = t → b ∈ m) (hu : slot.unsent.count t ≤ u)
    (hx : slot.executing.count t ≤ x) :
    Life row m' u' x' (n + e.sent.countP fun q => q.testTaskId = t) := by
  cases hm with
  | @load v hph hload =>
    obtain ⟨hget, -, -⟩ := loadTask_eq_ok_iff.1 hload
    have hid := (Table.get?_eq_some_iff.1 hget).2
    by_cases ht : slot.entry.taskId = t
    · have hview : v.testTask = row := by
        rw [ht, hrow] at hget
        exact (Option.some.inj hget).symm
      have hm0 := halone rfl ht
      have hid' : v.testTask.id = t := hid.trans ht
      simp [hph, hid', ht,
        hm0] at hA hU hX hu hx
      obtain ⟨hx0, h1, h2, h3, h4⟩ := h.waiting_inv hm0 (by omega)
      subst hA
      exact .running hview h1 h2 (by omega) (by simp; omega)
    · have hne : ¬ v.testTask.id = t := fun he => ht (hid.symm.trans he)
      simp [hph, hne, ht] at hA hU hX ⊢
      subst hA hU hX
      exact h
  | missing hph hload =>
    simp [hph] at hA hU hX ⊢
    subst hA hX
    exact h.of_le (by omega)
  | readContext hph =>
    simp [hph] at hA hU hX ⊢
    subst hA hU hX
    exact h
  | @refused v chain allowed now call err st' hph hpass =>
    have hlim := passRateLimit_limited lib rateLimiter v chain allowed now call st
    rw [hpass] at hlim
    have hkeys : st'.retryPending.keys.count t ≤
        st.retryPending.keys.count t + if v.testTask.id = t then 1 else 0 := count_keys_of_limited hlim
    by_cases ht : v.testTask.id = t
    · simp [hph, ht] at hA hU hX hu hkeys
      obtain ⟨-, hm1, h1, h2, h3, h4⟩ := h.running_inv (hmem _ (by simp [hph]) ht)
      obtain rfl : m' = 0 := by simpa [hm1] using hA
      obtain rfl : x' = 0 := by omega
      exact .waiting h1 h2 (by omega) (by simp; omega)
    · simp [hph, ht] at hA hU hX hkeys ⊢
      subst hA hX
      exact h.of_le (by omega)
  | @sent v chain allowed now call st' hph hpass =>
    have hlim := passRateLimit_limited lib rateLimiter v chain allowed now call st
    rw [hpass] at hlim
    obtain rfl : st' = st := by
      cases hlim
      rfl
    have hsent := countP_requests_le (t := t) v chain
    by_cases ht : v.testTask.id = t
    · simp [hph, ht] at hA hU hX hu hsent
      obtain ⟨hv, hm1, h1, h2, h3, h4⟩ := h.running_inv (hmem _ (by simp [hph]) ht)
      rw [hA, hm1]
      exact .running hv h1 h2 (by omega) (by simp; omega)
    · simp [hph, ht] at hA hU hX hsent ⊢
      subst hA hU hX
      rwa [List.countP_eq_zero.2 (by simpa using hsent)]
  | @judged v chain reply now call expireCall write o hph hj =>
    simp only [Action.faultless, Bool.and_eq_true, decide_eq_true_eq] at hf
    obtain ⟨rfl, rfl⟩ := hf
    have hret : (st.perform v write now .ok .ok).1 = .ok () := by cases write <;> rfl
    have hcon := judgeReply_concludes hj
    simp only [hret] at hA hU hX ⊢
    by_cases ht : v.testTask.id = t
    · have ho : o.testTaskId = t := hcon.testTaskId.trans ht
      simp [hph, ht, ho, Except.map] at hA hU hX hx
      obtain ⟨hv, hm1, h1, h2, h3, h4⟩ := h.running_inv (hmem _ (by simp [hph]) ht)
      subst hv
      obtain rfl : m' = {.ended o} := by
        rw [hm1, add_comm] at hA
        exact add_left_cancel hA
      obtain rfl : x' = 0 := by omega
      obtain rfl : u = 0 := by omega
      have hcount : u' + st.retryPending.keys.count t =
          (st.perform v write now .ok .ok).2.retryPending.keys.count t := by omega
      exact .of_verdict hcon ht h1 h2 (by simp; omega) hcount
    · have ho : ¬ o.testTaskId = t := fun he => ht (hcon.testTaskId.symm.trans he)
      rw [Stores.perform_retryPending] at hU
      simp [hph, ht, ho, Except.map] at hA hU hX ⊢
      subst hA hX
      refine h.of_le ?_
      cases write with
      | scheduleRetry at_ =>
        have hkeys := count_keys_scheduleRetry_le st.retryPending t v.testTask.id at_
        rw [if_neg ht] at hkeys
        simp [Call.tookEffect] at hU
        omega
      | _ => simp at hU; omega
  | @unjudged v chain reply now call expireCall err hph hj =>
    by_cases ht : v.testTask.id = t
    · simp [hph, ht] at hA hU hX hx
      obtain ⟨-, hm1, h1, h2, h3, h4⟩ := h.running_inv (hmem _ (by simp [hph]) ht)
      obtain rfl : m' = 0 := by simpa [hm1] using hA
      obtain rfl : x' = 0 := by omega
      exact .waiting h1 h2 (by omega) (by simp; omega)
    · simp [hph, ht] at hA hU hX ⊢
      subst hA hU hX
      exact h
  | callRaised => simp [Action.faultless] at hf

end

/-- The commit of a batch, of which `outcomes` are the ones for the task. -/
theorem Life.commit {row : TestTask} {outcomes : List TaskOutcome} {m m' : Multiset Attempt}
    {u x n : ℕ} (h : Life row m u x n) (hm : m = ↑(outcomes.map Attempt.ended) + m') :
    Life (outcomes.foldl TestTask.record row) m' u x n ∧
      List.range' 1 row.attempts ++ outcomes.map TaskOutcome.attemptNumber =
        List.range' 1 (outcomes.foldl TestTask.record row).attempts := by
  cases outcomes with
  | nil =>
    obtain rfl : m = m' := by simpa using hm
    exact ⟨h, by simp⟩
  | cons o outcomes =>
    have hm' : m = .ended o ::ₘ ((outcomes.map Attempt.ended : Multiset Attempt) + m') := by
      rw [hm, List.map_cons, ← Multiset.cons_coe, Multiset.cons_add]
    -- one outcome at most is in flight
    have hone : ∀ q, m = {.ended q} → q = o ∧ outcomes = [] ∧ m' = 0 := by
      intro q hq
      obtain ⟨he, hz⟩ := (Multiset.singleton_eq_cons_iff _).1 (hq.symm.trans hm')
      cases he
      have hcard : outcomes.length + Multiset.card m' = 0 := by
        simpa using congrArg Multiset.card hz
      exact ⟨rfl, List.length_eq_zero_iff.1 (by omega), Multiset.card_eq_zero.1 (by omega)⟩
    have hnot : row.status.terminal = false → row.attempts = row.retryCount := by
      intro ht
      unfold TestTask.attempts
      split
      · rename_i hs
        rw [hs] at ht
        cases ht
      · rfl
    cases h with
    | waiting => exact absurd hm' Multiset.zero_ne_cons
    | done => exact absurd hm' Multiset.zero_ne_cons
    | running =>
      obtain ⟨he, -⟩ := (Multiset.singleton_eq_cons_iff _).1 hm'
      cases he
    | @retrying q _ _ h1 h2 h3 h4 h5 h6 h7 =>
      obtain ⟨rfl, rfl, rfl⟩ := hone _ rfl
      simp only [List.foldl_cons, List.foldl_nil, List.map_cons, List.map_nil]
      refine ⟨.waiting ?_ ?_ h6 ?_, ?_⟩
      · simp [TestTask.record, h4, TestTaskStatus.terminal]
      · simp [TestTask.record, h5]
        omega
      · simp [TestTask.record, h5]
        omega
      · rw [hnot h1, h3, show (row.record q).attempts = row.retryCount + 1 by
          simp [TestTask.attempts, TestTask.record, h4, h5], List.range'_1_concat, Nat.add_comm 1]
    | @concluding q _ h1 h2 h3 h4 h5 =>
      obtain ⟨rfl, rfl, rfl⟩ := hone _ rfl
      have hatt : (row.record q).attempts = row.retryCount + 1 := by
        rcases h4 with ⟨hs, hrc⟩ | ⟨hs, hrc⟩ <;> simp [TestTask.attempts, TestTask.record, hs, hrc]
      simp only [List.foldl_cons, List.foldl_nil, List.map_cons, List.map_nil]
      refine ⟨.done ?_ ?_ ?_, ?_⟩
      · rcases h4 with ⟨hs, -⟩ | ⟨hs, -⟩ <;> simp [TestTask.record, hs, TestTaskStatus.terminal]
      · rw [hatt]
        exact h5
      · rw [hatt]
        exact Nat.add_le_add_right h2 1
      · rw [hnot h1, h3, hatt, List.range'_1_concat, Nat.add_comm 1]

/-! The steps of the platform. -/

theorem Budget.of_le (h : Budget t s) (hdb : s'.stores.db = s.stores.db)
    (hatt : s'.attempts = s.attempts) (hexec : s'.executing t = s.executing t)
    (hsent : s'.sent = s.sent) (hu : s'.unsent t ≤ s.unsent t) : Budget t s' := by
  obtain ⟨row, hrow, hlife, hnum⟩ := h
  refine ⟨row, hdb ▸ hrow, ?_, hdb ▸ hnum⟩
  rw [System.attemptsOf, hatt, hexec, System.sentFor, hsent]
  exact hlife.of_le hu

/-- A consume moves the entries of its batch from the stream to a worker. -/
theorem count_consume (st : Stream) (w : WorkerId) (count : ℕ) (now : Timestamp) (t : UUID) :
    ((st.consume (.worker w) count now).undelivered.map StreamEntry.taskId).count t +
        ((st.batch count).map StreamEntry.taskId).count t =
      (st.undelivered.map StreamEntry.taskId).count t := by
  have hsplit : st.undelivered =
      st.batch count ++ (st.consume (.worker w) count now).undelivered := by
    rw [Stream.undelivered_consume, Stream.batch, List.take_append_drop]
  rw [hsplit, List.map_append, List.count_append, Nat.add_comm]

/-- A worker that neither takes an entry on nor lets one go. -/
theorem count_bySlot_set {g : Slot → List UUID} {ws : List WorkerState} {w : WorkerId}
    {old new : WorkerState} (hw : ws[w]? = some old) (hold : old.bySlot g = [])
    (hnew : new.bySlot g = []) (t : UUID) :
    (held (WorkerState.bySlot g) (ws.set w new)).count t =
      (held (WorkerState.bySlot g) ws).count t := by
  have := congrArg (Multiset.count t) (held_set (f := WorkerState.bySlot g) hw new)
  rw [hold, hnew] at this
  simpa using this

theorem db_of_slotMove {w : WorkerId} {st : Stores} {slot : Slot} {sa : SlotAction} {e : SlotEffect}
    (h : SlotMove lib rateLimiter w st slot sa e) : e.stores.db = st.db := by
  cases h with
  | @refused v chain allowed now call err st' _ hpass =>
    have := limited_db (passRateLimit_limited lib rateLimiter v chain allowed now call st)
    rwa [hpass] at this
  | @sent v chain allowed now call st' _ hpass =>
    have := limited_db (passRateLimit_limited lib rateLimiter v chain allowed now call st)
    rwa [hpass] at this
  | judged => exact st.perform_db _ _ _ _ _
  | _ => rfl

theorem Budget.slot (h : Budget t s) {w : WorkerId} {i : ℕ} {sa : SlotAction} {slots : List Slot}
    {slot : Slot} {e : SlotEffect} (hf : (Action.slot w i sa).faultless)
    (ha : startsAlone s (.slot w i sa)) (hw : s.workers[w]? = some (.gathering slots))
    (hi : slots[i]? = some slot) (hmove : SlotMove lib rateLimiter w s.stores slot sa e)
    (hst : s'.stores = e.stores) (hstream : s'.stream = s.stream) (hsent : s'.sent = s.sent ++ e.sent)
    (hsweep : s'.retrySweeper = s.retrySweeper)
    (hs' : s'.workers = s.workers.set w (.gathering (slots.set i { slot with phase := e.phase }))) :
    Budget t s' := by
  obtain ⟨row, hrow, hlife, hnum⟩ := h
  have hdb : s'.stores.db = s.stores.db := by rw [hst, db_of_slotMove hmove]
  refine ⟨row, hdb ▸ hrow, ?_, hdb ▸ hnum⟩
  have hA := congrArg (Multiset.filter fun b => b.taskId = t)
    (held_set_slot (f := WorkerState.attempts) (g := Slot.attempts) (fun _ => rfl) hw hi hs')
  have hU := congrArg (Multiset.count t)
    (held_set_slot (f := WorkerState.bySlot Slot.unsent) (g := Slot.unsent) (fun _ => rfl) hw hi hs')
  have hX := congrArg (Multiset.count t)
    (held_set_slot (f := WorkerState.bySlot Slot.executing) (g := Slot.executing) (fun _ => rfl) hw hi hs')
  have hu := Multiset.count_le_of_le t (coe_le_held_of_slot (g := Slot.unsent) hw hi)
  have hx := Multiset.count_le_of_le t (coe_le_held_of_slot (g := Slot.executing) hw hi)
  rw [Multiset.filter_add, Multiset.filter_add, Multiset.filter_coe, Multiset.filter_coe] at hA
  rw [Multiset.count_add, Multiset.count_add, Multiset.coe_count, Multiset.coe_count] at hU hX
  rw [Multiset.coe_count] at hu hx
  rw [System.sentFor, hsent, List.countP_append]
  refine Life.slotMove (i := i) hmove hrow hf hlife ?_ hA ?_ hX ?_ ?_ hx
  · rintro rfl ht
    simp only [startsAlone, slotAt?_eq hw hi, Bool.not_eq_true', ht] at ha
    exact Multiset.filter_eq_nil.2 fun b hb => inFlight_eq_false_iff.1 ha b hb
  · simp only [System.unsent, System.scheduled, hst, hstream, hsweep]
    omega
  · intro b hb hid
    exact Multiset.mem_filter.2 ⟨mem_attempts_of_slot hw hi hb, hid⟩
  · simp only [System.unsent]
    omega

/-- A committed batch moves the task on and adds its results. -/
theorem Budget.written (h : Budget t s) {outcomes : List TaskOutcome} {now : Timestamp}
    (hwr : Written outcomes now s.stores.db s'.stores.db)
    (hatt : s.attempts = ↑(outcomes.map Attempt.ended) + s'.attempts)
    (hunsent : s'.unsent t = s.unsent t) (hexec : s'.executing t = s.executing t)
    (hsent : s'.sent = s.sent) : Budget t s' := by
  obtain ⟨row, hrow, hlife, hnum⟩ := h
  have hm : s.attemptsOf t =
      ↑((outcomes.filter fun o => o.testTaskId = t).map Attempt.ended) + s'.attemptsOf t := by
    rw [System.attemptsOf, hatt, Multiset.filter_add, Multiset.filter_coe, List.filter_map]
    rfl
  obtain ⟨hlife', hnum'⟩ := hlife.commit hm
  refine ⟨(outcomes.filter fun o => o.testTaskId = t).foldl TestTask.record row, ?_, ?_, ?_⟩
  · rw [hwr.testTasks, get?_foldl_applyOutcome, hrow]
    rfl
  · rw [hunsent, hexec, System.sentFor, hsent]
    exact hlife'
  · rw [← hnum', ← hnum, Database.attemptNumbers, hwr.requestResults, List.filter_append,
      List.map_append, List.filter_map, List.map_map]
    rfl

theorem Budget.step (h : Budget t s) (hb : Books s) (hr : RangedIn s) (hf : a.faultless)
    (ha : startsAlone s a) (hm : Move lib rateLimiter s a s') : Budget t s' := by
  have hsched := fun hno => scheduled_le_of_move hr hm hno t
  cases hm with
  | @consume w count now hw =>
    have hu := congrArg (Multiset.count t)
      (held_set (f := WorkerState.bySlot Slot.unsent) hw (afterConsume (s.stream.batch count)))
    have hst := count_consume s.stream w count now t
    have htask : (s.stream.batch count).flatMap (fun e => Slot.unsent ⟨e, .delivered⟩) =
        (s.stream.batch count).map StreamEntry.taskId := by
      rw [List.map_eq_flatMap]
      rfl
    rw [bySlot_afterConsume, htask] at hu
    simp only [WorkerState.bySlot, Multiset.count_add, Multiset.coe_count, List.count_nil] at hu
    refine h.of_le rfl (attempts_kept hw rfl (attempts_afterConsume _)) ?_ rfl ?_
    · refine count_bySlot_set hw rfl ?_ t
      rw [bySlot_afterConsume, List.flatMap_eq_nil_iff]
      exact fun _ _ => rfl
    · simp only [System.unsent, System.scheduled] at hst ⊢
      omega
  | @slot w i sa slots slot e hw hi hmove => exact h.slot hf ha hw hi hmove rfl rfl rfl rfl rfl
  | @gather w slots hw hall =>
    have hnil : ∀ g : Slot → List UUID, (∀ slot, slot.result?.isSome → g slot = []) →
        (WorkerState.gathering slots).bySlot g = [] := by
      intro g hg
      rw [WorkerState.bySlot, List.flatMap_eq_nil_iff]
      exact fun slot hslot => hg slot (hall slot hslot)
    refine h.of_le rfl (attempts_kept hw rfl (attempts_gathered hall)) ?_ rfl ?_
    · refine count_bySlot_set hw (hnil _ ?_) (bySlot_afterGather _ _) t
      intro slot hslot
      cases hph : slot.phase <;> simp [Slot.result?, Slot.executing, hph] at hslot ⊢
    · refine (Nat.add_left_cancel_iff.2 (count_bySlot_set hw (hnil _ ?_) (bySlot_afterGather _ _) t)).le
      intro slot hslot
      cases hph : slot.phase <;> simp [Slot.result?, Slot.unsent, hph] at hslot ⊢
  | @write w now call b hw =>
    obtain rfl : call = .ok := by simpa [Action.faultless] using hf
    refine h.written (hb.written hw rfl now).1 (attempts_dropped hw rfl (attempts_afterWrite _ _)) ?_ ?_ rfl
    · exact Nat.add_left_cancel_iff.2 (count_bySlot_set hw rfl (bySlot_afterWrite _ _ _) t)
    · exact count_bySlot_set hw rfl (bySlot_afterWrite _ _ _) t
  | @ack w call entryIds hw =>
    have hstream : (runAck entryIds call s.stream).2.undelivered = s.stream.undelivered := by
      unfold runAck
      dsimp only
      split <;> rfl
    refine h.of_le rfl (attempts_kept hw rfl rfl) (count_bySlot_set hw rfl rfl t) rfl ?_
    simp only [System.unsent, System.scheduled, hstream]
    exact (Nat.add_left_cancel_iff.2 (count_bySlot_set hw rfl rfl t)).le
  | crash => cases hf
  | retryRange =>
    exact h.of_le rfl rfl rfl rfl (Nat.add_le_add_right (Nat.add_le_add_left (hsched (by simp)) _) _)
  | @retryRemove call due hs =>
    refine h.of_le ?_ rfl rfl rfl (Nat.add_le_add_right (Nat.add_le_add_left (hsched (by simp)) _) _)
    dsimp only
    split <;> rfl
  | @retryEnqueue call u rest hs =>
    obtain rfl : call = .ok := by simpa [Action.faultless] using hf
    refine h.of_le rfl rfl rfl rfl ?_
    have hcount : (u :: rest).count t = rest.count t + if u == t then 1 else 0 := List.count_cons
    simp only [System.unsent, System.scheduled, Call.tookEffect, Call.returned, if_true,
      Stream.undelivered_enqueue, List.map_append, List.count_append, hs, RetrySweeper.inHand, hcount,
      List.map_cons, List.map_nil, List.count_cons, List.count_nil]
    omega
  | retryReschedule =>
    exact h.of_le (by simp) rfl rfl rfl
      (Nat.add_le_add_right (Nat.add_le_add_left (hsched (by simp)) _) _)
  | reclaim => cases hf
  | reclaimEnqueue => cases hf
  | reclaimAck => cases hf

theorem Fresh.budget (h : Fresh s) {row : TestTask} (hrow : s.stores.db.testTasks.get? t = some row) :
    Budget t s := by
  obtain ⟨hmem, hid⟩ := Table.get?_eq_some_iff.1 hrow
  obtain ⟨hs, hrc, -⟩ := h.waiting row hmem
  have hnone : ∀ g : Slot → List UUID, held (WorkerState.bySlot g) s.workers = 0 := by
    intro g
    rw [Multiset.eq_zero_iff_forall_notMem]
    intro u hu
    obtain ⟨x, hx, hux⟩ := mem_held.1 hu
    rw [h.idle x hx] at hux
    cases hux
  have hlog : s.stream.undelivered.map StreamEntry.taskId = s.stream.log := by
    rw [Stream.undelivered, h.undelivered, List.drop_zero, List.map_map]
    exact List.zipIdx_map_fst 0 _
  have hone : s.stream.log.count t ≤ 1 := by
    rw [h.enqueued.count_eq]
    exact List.nodup_iff_count_le_one.1 s.stores.db.testTasks.nodup t
  refine ⟨row, hrow, ?_, ?_⟩
  · have hm : s.attemptsOf t = 0 := by rw [System.attemptsOf, attempts_eq_zero h.idle]; rfl
    have hx : s.executing t = 0 := by rw [System.executing, hnone]; rfl
    have hn : s.sentFor t = 0 := by rw [System.sentFor, h.noRequest]; rfl
    have hu : s.unsent t ≤ 1 := by
      simpa [System.unsent, System.scheduled, hlog, hnone, h.noRetry, h.retrySweeper,
        RetrySweeper.inHand] using hone
    rw [hm, hx, hn]
    refine .waiting ?_ ?_ hu ?_
    · rw [hs]
      rfl
    · omega
    · omega
  · rw [Database.attemptNumbers, h.noResult, TestTask.attempts, hs, if_neg (by decide), hrc]
    rfl

/-- Along a run in which no call fails, no process dies and no attempt starts while
another one of its task is in flight, every task keeps to its retry budget and
its committed attempts are numbered 1, 2, ..., n. -/
theorem attempts_within_budget {as : List Action} (h₀ : Fresh s₀)
    (hr : Run (step lib rateLimiter) s₀ as s)
    (hf : Each (step lib rateLimiter) (fun _ a => a.faultless) s₀ as)
    (ha : Each (step lib rateLimiter) (fun s a => startsAlone s a) s₀ as) :
    ∀ t row, s.stores.db.testTasks.get? t = some row → s.sentFor t ≤ row.maxRetries + 1 ∧
      ∃ n, s.stores.db.attemptNumbers t = List.range' 1 n := by
  have hinv : (Books s ∧ RangedIn s) ∧ s.stores.db.testTasks.keys = s₀.stores.db.testTasks.keys ∧
      ∀ t row, s₀.stores.db.testTasks.get? t = some row → Budget t s := by
    refine hr.invariant (I := fun s => (Books s ∧ RangedIn s) ∧
      s.stores.db.testTasks.keys = s₀.stores.db.testTasks.keys ∧
      ∀ t row, s₀.stores.db.testTasks.get? t = some row → Budget t s) (hf.and ha) ?_ ?_
    · refine ⟨⟨h₀.books, ?_⟩, rfl, fun t row hrow => h₀.budget hrow⟩
      intro due hdue
      rw [h₀.retrySweeper] at hdue
      cases hdue
    · intro u a u' ⟨⟨hb, hrg⟩, hk, hbud⟩ ⟨hf, ha⟩ hstep
      have hm := move_of_step hstep
      refine ⟨⟨hb.step hm, hrg.step hm⟩, ?_, fun t row hrow => (hbud t row hrow).step hb hrg hf ha hm⟩
      rw [← hk]
      cases advance_of_move hm with
      | quiet hdb => rw [hdb]
      | started _ _ _ _ _ hdb => rw [hdb]
      | settled _ _ _ _ _ hdb => rw [hdb]
      | lost _ hdb => rw [hdb]
      | committed _ _ _ hok =>
        rw [(written_of_writeBatch hok).testTasks]
        exact keys_foldl_applyOutcome
  obtain ⟨-, hkeys, hbud⟩ := hinv
  intro t row hrow
  have hkey : t ∈ s₀.stores.db.testTasks.keys := hkeys ▸ Table.get?_isSome_iff.1 (hrow ▸ rfl)
  obtain ⟨row₀, hrow₀⟩ := Option.isSome_iff_exists.1 (Table.get?_isSome_iff.2 hkey)
  obtain ⟨row', hrow', hlife, hnum⟩ := hbud t row₀ hrow₀
  obtain rfl : row' = row := Option.some.inj (hrow'.symm.trans hrow)
  exact ⟨hlife.sent_le, _, hnum⟩

end

theorem budget_retriedOnce :
    (final plainStep oneTask retriedOnce).sentFor 0 ≤ 4 ∧
      ∃ n, (final plainStep oneTask retriedOnce).stores.db.attemptNumbers 0 = List.range' 1 n := by
  have hr : Run plainStep oneTask retriedOnce (final plainStep oneTask retriedOnce) := run_final _ rfl
  exact attempts_within_budget fresh_oneTask hr
    (each_of_eachB (p := fun _ a => a.faultless) (fun _ _ h => h) (by rfl))
    (each_of_eachB (p := startsAlone) (fun _ _ h => h) (by rfl)) 0 _ rfl

/-- Both attempts are committed as the first. -/
theorem not_budget_staleRetry :
    Fresh twoTasks ∧ Run plainStep twoTasks staleRetry (final plainStep twoTasks staleRetry) ∧
      Each plainStep (fun _ a => a.faultless) twoTasks staleRetry ∧
      (final plainStep twoTasks staleRetry).stores.db.attemptNumbers 0 = [1, 1] ∧
      ¬ ((final plainStep twoTasks staleRetry).stores.db.attemptNumbers 0).Nodup := by
  have hnum : (final plainStep twoTasks staleRetry).stores.db.attemptNumbers 0 = [1, 1] := by rfl
  refine ⟨fresh_twoTasks, run_final _ rfl,
    each_of_eachB (p := fun _ a => a.faultless) (fun _ _ h => h) (by rfl), hnum, ?_⟩
  rw [hnum]
  decide

end ApiTesting
