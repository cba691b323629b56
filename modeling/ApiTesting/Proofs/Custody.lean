import ApiTesting.Proofs.Ownership

/-! The custody of tasks. A task that is not terminal is in somebody's hands: on
the stream, on the retry set, in the hand of the sweeper, or behind an entry that
will not be acknowledged before the task is terminal or back on the set. A task
can fall out of all hands only by going back from a terminal row to RETRYING. -/

namespace ApiTesting

open Keyed Machine

/-- Somewhere a process will still find the task. -/
def System.Referenced (s : System) (t : UUID) : Prop :=
  (∃ e ∈ s.stream.undelivered, e.taskId = t) ∨ (∃ p ∈ s.stream.pending.rows, p.entry.taskId = t) ∨
    t ∈ s.stores.retryPending.keys ∨ t ∈ s.retrySweeper.inHand

/-- The step writes no RETRYING over a terminal row. -/
def noRelapse : System → Action → Bool := commitsOpen fun status => status = .retrying

/-- The entry of the slot is not acknowledged before its task is terminal. -/
def Slot.keeps (slot : Slot) : Prop :=
  match slot.phase with
  | .returned (.ok o) => o.newStatus.terminal
  | .returned (.error e) => ¬ e.handled
  | _ => True

/-- The same for a pending entry of a worker. -/
def WorkerState.keeps (x : WorkerState) (p : Pending) : Prop :=
  match x with
  | .idle => True
  | .gathering slots => ∀ slot ∈ slots, slot.entry.entryId = p.id → slot.keeps
  | .writing b => p.id ∈ b.entryIdsToAck →
      ∃ o ∈ b.outcomes, o.testTaskId = p.entry.taskId ∧ o.newStatus.terminal
  | .acking entryIds => p.id ∉ entryIds

/-- The foreign keys of the tasks. -/
def Rooted (db : Database) : Prop :=
  ∀ t row, db.testTasks.get? t = some row →
    (db.apiRequests.get? row.apiRequestId).isSome ∧ (db.testRuns.get? row.testRunId).isSome

/-- The task is in somebody's hands. -/
def Secure (s : System) (t : UUID) : Prop :=
  (∃ e ∈ s.stream.undelivered, e.taskId = t) ∨ t ∈ s.stores.retryPending.keys ∨
    t ∈ s.retrySweeper.inHand ∨
    ∃ p ∈ s.stream.pending.rows, p.entry.taskId = t ∧
      ∀ (w : WorkerId) (x : WorkerState), s.workers[w]? = some x → x.keeps p

structure Custody (s : System) : Prop where
  rooted : Rooted s.stores.db
  owned : Owned s
  secure : ∀ t row, s.stores.db.testTasks.get? t = some row → row.status.terminal = false → Secure s t

theorem Secure.referenced {s : System} {t : UUID} (h : Secure s t) : s.Referenced t := by
  rcases h with h | h | h | ⟨p, hp, ht, -⟩
  · exact .inl h
  · exact .inr (.inr (.inl h))
  · exact .inr (.inr (.inr h))
  · exact .inr (.inl ⟨p, hp, ht⟩)

section
variable {lib : Libraries} {rateLimiter : Bool} {s₀ s s' : System} {a : Action} {t : UUID}

theorem Written.rooted {outcomes : List TaskOutcome} {now : Timestamp} {db db' : Database}
    (h : Written outcomes now db db') (hr : Rooted db) : Rooted db' := by
  intro t row' hrow'
  have hplan := map_plan_foldl_applyOutcome db outcomes t
  rw [← h.testTasks, hrow'] at hplan
  obtain ⟨row, hrow, hsame⟩ := Option.map_eq_some_iff.1 hplan.symm
  have hq : row.plan.apiRequestId = row'.plan.apiRequestId := by rw [hsame]
  have hrun : row.plan.testRunId = row'.plan.testRunId := by rw [hsame]
  obtain ⟨h1, h2⟩ := hr t row hrow
  change row.apiRequestId = row'.apiRequestId at hq
  change row.testRunId = row'.testRunId at hrun
  rw [h.apiRequests, ← hq, ← hrun]
  refine ⟨h1, ?_⟩
  rwa [Table.get?_isSome_iff, h.runKeys, ← Table.get?_isSome_iff]

/-- An attempt that will let its entry go has put its task on the retry set. -/
theorem Slot.keeps_of_move {w : WorkerId} {i : ℕ} {st : Stores} {slot : Slot} {sa : SlotAction}
    {e : SlotEffect} (hr : Rooted st.db) (h : slot.sound) (hf : (Action.slot w i sa).faultless)
    (hm : SlotMove lib rateLimiter w st slot sa e) {row : TestTask}
    (hrow : st.db.testTasks.get? slot.entry.taskId = some row) :
    ({ slot with phase := e.phase } : Slot).keeps ∨ slot.entry.taskId ∈ e.stores.retryPending.keys := by
  have hrun : ∀ v, .running v ∈ slot.attempts → v.testTask.id = slot.entry.taskId := fun v hv => h _ hv
  cases hm with
  | load => exact .inl trivial
  | readContext => exact .inl trivial
  | sent => exact .inl trivial
  | missing hph hload =>
    obtain ⟨hq, hrun'⟩ := hr _ row hrow
    obtain ⟨v, hv⟩ := loadTask_isOk hrow hq hrun'
    rw [hv] at hload
    cases hload
  | @refused v chain allowed now call err st' hph hpass =>
    have hlim := passRateLimit_limited lib rateLimiter v chain allowed now call st
    rw [hpass] at hlim
    cases hlim with
    | deferred =>
      refine .inr (RetryQueue.mem_keys_scheduleRetry.2 (.inl ?_))
      exact (hrun v (by simp [Slot.attempts, hph, Phase.attempts])).symm
    | raised hnot => exact .inl hnot
  | @judged v chain reply now call expireCall write o hph hj =>
    simp only [Action.faultless, Bool.and_eq_true, decide_eq_true_eq] at hf
    obtain ⟨rfl, rfl⟩ := hf
    have hret : (st.perform v write now .ok .ok).1 = .ok () := by cases write <;> rfl
    have hid := hrun v (by simp [Slot.attempts, hph, Phase.attempts])
    simp only [Slot.keeps, hret, Except.map, Stores.perform_retryPending]
    cases (judgeReply_concludes hj).verdict with
    | completed _ hs =>
      rw [hs]
      exact .inl rfl
    | retrying =>
      refine .inr (RetryQueue.mem_keys_scheduleRetry.2 (.inl hid.symm))
    | failed _ hs =>
      rw [hs]
      exact .inl rfl
  | @unjudged v chain reply now call expireCall err hph hj =>
    exact .inl (judgeReply_raises lib w v chain reply now st.db err hj)
  | callRaised => simp [Action.faultless] at hf

/-! What a write does to a task, and each step to its custody. -/

/-- Where no RETRYING lands on a terminal row, a row that is open after the batch
was open before it and had no terminal outcome in it. -/
theorem open_of_foldl {db : Database} {outcomes : List TaskOutcome} {row' : TestTask}
    (hs : ∀ o ∈ outcomes, o.newStatus.terminal ∨ o.newStatus = .retrying)
    (h : landsOpen (fun status => status = .retrying) db outcomes)
    (hrow' : (outcomes.foldl applyOutcome db).testTasks.get? t = some row')
    (hopen : row'.status.terminal = false) :
    (∃ row, db.testTasks.get? t = some row ∧ row.status.terminal = false) ∧
      ∀ o ∈ outcomes, o.testTaskId = t → o.newStatus.terminal = false := by
  induction outcomes generalizing db with
  | nil =>
    refine ⟨⟨row', hrow', hopen⟩, ?_⟩
    intro o ho
    cases ho
  | cons o outcomes ih =>
    simp only [landsOpen, Bool.and_eq_true] at h
    rw [List.foldl_cons] at hrow'
    obtain ⟨⟨row, hrow, hrowopen⟩, hrest⟩ :=
      ih (fun q hq => hs q (List.mem_cons_of_mem _ hq)) h.2 hrow'
    rw [get?_applyOutcome] at hrow
    by_cases ht : t = o.testTaskId
    · rw [if_pos ht] at hrow
      obtain ⟨row₀, hrow₀, rfl⟩ := Option.map_eq_some_iff.1 hrow
      have hnot : o.newStatus.terminal = false := hrowopen
      have hret : o.newStatus = .retrying := by
        rcases hs o (by simp) with hterm | hret
        · rw [hnot] at hterm
          cases hterm
        · exact hret
      refine ⟨⟨row₀, by rw [ht, hrow₀], by simpa [hret, hrow₀] using h.1⟩, ?_⟩
      intro q hq hid
      rcases List.mem_cons.1 hq with rfl | hq
      · exact hnot
      · exact hrest q hq hid
    · rw [if_neg ht] at hrow
      refine ⟨⟨row, hrow, hrowopen⟩, ?_⟩
      intro q hq hid
      rcases List.mem_cons.1 hq with rfl | hq
      · exact absurd hid.symm ht
      · exact hrest q hq hid

/-- A row that is open after a write was open before it. -/
theorem open_before_write (hb : Books s) {w : WorkerId} {b : Batch} {now : Timestamp} {row' : TestTask}
    (hw : s.workers[w]? = some (.writing b)) (hn : noRelapse s (.write w now .ok))
    (hrow' : (runWrite b.outcomes now .ok s.stores.db).2.testTasks.get? t = some row')
    (hopen : row'.status.terminal = false) :
    (∃ row, s.stores.db.testTasks.get? t = some row ∧ row.status.terminal = false) ∧
      ∀ o ∈ b.outcomes, o.testTaskId = t → o.newStatus.terminal = false := by
  have hcall : Call.ok.tookEffect := rfl
  obtain ⟨hwr, hg⟩ := hb.written hw hcall now
  rw [hwr.testTasks] at hrow'
  refine open_of_foldl (fun o ho => ?_) (by simpa [noRelapse, commitsOpen, hw, Call.tookEffect] using hn)
    hrow' hopen
  rcases (hg o ho).2.2 with hs | hs | hs
  · exact .inl (by rw [hs]; rfl)
  · exact .inl (by rw [hs]; rfl)
  · exact .inr hs

/-- A worker that moves on lets an entry go only if it may. -/
theorem keeps_set {ws : List WorkerState} {w : WorkerId} {y : WorkerState} {p : Pending}
    (h : ∀ (v : WorkerId) (x : WorkerState), ws[v]? = some x → x.keeps p) (hy : y.keeps p) :
    ∀ (v : WorkerId) (x : WorkerState), (ws.set w y)[v]? = some x → x.keeps p := by
  intro v x hx
  rcases getElem?_set_cases hx with ⟨-, rfl⟩ | ⟨-, hx⟩
  · exact hy
  · exact h v x hx

theorem keeps_beforeAck {entryIds : List ℕ} {p : Pending} (h : p.id ∉ entryIds) :
    (beforeAck entryIds).keeps p := by
  unfold beforeAck
  split
  · trivial
  · exact h

theorem keeps_afterConsume (batch : List StreamEntry) (p : Pending) : (afterConsume batch).keeps p := by
  unfold afterConsume
  split
  · trivial
  · intro slot hslot _
    obtain ⟨e, -, rfl⟩ := List.mem_map.1 hslot
    trivial

/-- Nobody has an entry in hand that nobody has been given. -/
theorem Owned.keeps_new (h : Owned s) {p : Pending} (hp : s.stream.delivered ≤ p.id) {w : WorkerId}
    {x : WorkerState} (hx : s.workers[w]? = some x) : x.keeps p := by
  have hno : p.id ∉ x.entryIds := by
    intro hid
    obtain ⟨q, hq, he, -⟩ := h.pending w x hx p.id hid
    have := s.stream.pending_lt q hq
    omega
  cases x with
  | idle => trivial
  | gathering slots => exact fun slot hslot he => absurd (he ▸ List.mem_map_of_mem hslot) hno
  | writing b => exact fun hid => absurd hid hno
  | acking entryIds => exact hno

theorem keeps_afterGather {slots : List Slot} {p : Pending}
    (h : (WorkerState.gathering slots).keeps p)
    (hid : ∀ slot ∈ slots, slot.entry.entryId = p.id → slot.sound ∧ slot.entry = p.entry) :
    (afterGather (collect (slots.filterMap Slot.result?))).keeps p := by
  have hout : p.id ∈ (collect (slots.filterMap Slot.result?)).entryIdsToAck →
      ∃ o ∈ (collect (slots.filterMap Slot.result?)).outcomes,
        o.testTaskId = p.entry.taskId ∧ o.newStatus.terminal := by
    intro hp
    obtain ⟨slot, hslot, hpid, ⟨o, hph, ho⟩ | ⟨e, hph, he⟩⟩ := exists_slot_of_mem_gathered hp
    · obtain ⟨hsound, hentry⟩ := hid slot hslot hpid
      have hkeeps := h slot hslot hpid
      rw [Slot.keeps, hph] at hkeeps
      refine ⟨o, ho, ?_, hkeeps⟩
      rw [← hentry]
      exact hsound (.ended o) (by simp [Slot.attempts, hph, Phase.attempts])
    · have hkeeps := h slot hslot hpid
      rw [Slot.keeps, hph] at hkeeps
      exact absurd he hkeeps
  unfold afterGather
  split
  · rename_i hnil
    refine keeps_beforeAck fun hp => ?_
    obtain ⟨o, ho, -⟩ := hout hp
    rw [List.isEmpty_iff.1 hnil] at ho
    cases ho
  · exact hout

/-- A step of one worker that leaves the stream to the others: the entry of the task
is still kept, or the task has been put on the retry set. -/
theorem Secure.of_set (h : Secure s t) {w : WorkerId} {y : WorkerState} (hstream : s'.stream = s.stream)
    (hkeys : t ∈ s.stores.retryPending.keys → t ∈ s'.stores.retryPending.keys)
    (hhand : s'.retrySweeper = s.retrySweeper) (hworkers : s'.workers = s.workers.set w y)
    (hkeeps : ∀ p ∈ s.stream.pending.rows, p.entry.taskId = t →
      (∀ (v : WorkerId) (x : WorkerState), s.workers[v]? = some x → x.keeps p) →
      y.keeps p ∨ t ∈ s'.stores.retryPending.keys) : Secure s' t := by
  rcases h with hk | hk | hk | ⟨p, hp, ht, hall⟩
  · exact .inl (hstream ▸ hk)
  · exact .inr (.inl (hkeys hk))
  · exact .inr (.inr (.inl (hhand ▸ hk)))
  · rcases hkeeps p hp ht hall with hy | hk
    · refine .inr (.inr (.inr ⟨p, hstream ▸ hp, ht, ?_⟩))
      rw [hworkers]
      exact keeps_set hall hy
    · exact .inr (.inl hk)

/-- An entry a worker is given is kept by it, and nobody else has it. -/
theorem Secure.consume (h : Secure s t) (ho : Owned s) (w : WorkerId) (count : ℕ) (now : Timestamp) :
    Secure { s with
      stream := s.stream.consume (.worker w) count now
      workers := s.workers.set w (afterConsume (s.stream.batch count)) } t := by
  rcases h with ⟨e, he, ht⟩ | hk | hk | ⟨p, hp, ht, hkeeps⟩
  · rw [← List.take_append_drop count s.stream.undelivered, List.mem_append] at he
    rcases he with he | he
    · have hnew : s.stream.delivered ≤ Pending.id ⟨e, .worker w, now⟩ := (Stream.batch_bounds he).1
      refine .inr (.inr (.inr ⟨⟨e, .worker w, now⟩, ?_, ht, ?_⟩))
      · exact List.mem_append.2 (.inr (List.mem_map_of_mem he))
      · exact keeps_set (fun v x hx => ho.keeps_new hnew hx) (keeps_afterConsume _ _)
    · refine .inl ⟨e, ?_, ht⟩
      rwa [Stream.undelivered_consume]
  · exact .inr (.inl hk)
  · exact .inr (.inr (.inl hk))
  · refine .inr (.inr (.inr ⟨p, List.mem_append.2 (.inl hp), ht, ?_⟩))
    exact keeps_set hkeeps (keeps_afterConsume _ _)

/-- A step of the retry sweeper that takes nothing off the stream: only what it does to
the retry set and to its own hand is left to look at. -/
theorem Secure.of_sweeper (h : Secure s t) (hworkers : s'.workers = s.workers)
    (hpending : s'.stream.pending = s.stream.pending)
    (hundelivered : ∀ e ∈ s.stream.undelivered, e ∈ s'.stream.undelivered)
    (hkeys : t ∈ s.stores.retryPending.keys → Secure s' t)
    (hhand : t ∈ s.retrySweeper.inHand → Secure s' t) : Secure s' t := by
  rcases h with ⟨e, he, ht⟩ | hk | hk | ⟨p, hp, ht, hkeeps⟩
  · exact .inl ⟨e, hundelivered e he, ht⟩
  · exact hkeys hk
  · exact hhand hk
  · refine .inr (.inr (.inr ⟨p, hpending ▸ hp, ht, ?_⟩))
    rw [hworkers]
    exact hkeeps

/-- A slot that moves keeps its entry, or its task has been put on the retry set; the
other slots are as they were. -/
theorem Secure.slot (h : Secure s t) (hr : Rooted s.stores.db) (ho : Owned s) {w : WorkerId} {i : ℕ}
    {sa : SlotAction} {slots : List Slot} {slot : Slot} {e : SlotEffect}
    (hf : (Action.slot w i sa).faultless) (hw : s.workers[w]? = some (.gathering slots))
    (hi : slots[i]? = some slot) (hmove : SlotMove lib rateLimiter w s.stores slot sa e)
    {row : TestTask} (hrow : s.stores.db.testTasks.get? t = some row) :
    Secure { s with
      stores := e.stores
      sent := s.sent ++ e.sent
      published := s.published ++ e.published
      workers := s.workers.set w (.gathering (slots.set i { slot with phase := e.phase })) } t := by
  refine h.of_set rfl (mem_keys_of_slotMove hmove) rfl rfl ?_
  intro p hp ht hkeeps
  -- only the slot that has moved can let its entry go
  have hrest : ∀ slot' ∈ slots.set i { slot with phase := e.phase }, slot'.entry.entryId = p.id →
      slot'.keeps ∨ slot' = { slot with phase := e.phase } := by
    intro slot' hslot' he
    rcases List.mem_or_eq_of_mem_set hslot' with hslot' | rfl
    · exact .inl (hkeeps w _ hw slot' hslot' he)
    · exact .inr rfl
  obtain ⟨-, hslots⟩ := ho.slots w slots hw
  obtain ⟨hsound, q, hq, hqe⟩ := hslots slot (List.mem_of_getElem? hi)
  by_cases hid : slot.entry.entryId = p.id
  · obtain rfl := eq_of_id_eq hq hp (by rw [← hid, ← hqe]; rfl)
    rw [← ht, hqe] at hrow
    rcases Slot.keeps_of_move hr hsound hf hmove hrow with hkeep | hkey
    · refine .inl fun slot' hslot' he => ?_
      rcases hrest slot' hslot' he with hkept | rfl
      · exact hkept
      · exact hkeep
    · rw [← hqe, ht] at hkey
      exact .inr hkey
  · refine .inl fun slot' hslot' he => ?_
    rcases hrest slot' hslot' he with hkept | rfl
    · exact hkept
    · exact absurd he hid

/-- A batch is collected with the keeping of its slots. -/
theorem Secure.gather (h : Secure s t) (ho : Owned s) {w : WorkerId} {slots : List Slot}
    (hw : s.workers[w]? = some (.gathering slots)) :
    Secure { s with
      workers := s.workers.set w (afterGather (collect (slots.filterMap Slot.result?))) } t := by
  refine h.of_set rfl id rfl rfl ?_
  intro p hp ht hkeeps
  refine .inl (keeps_afterGather (hkeeps w _ hw) ?_)
  intro slot hslot hid
  obtain ⟨hsound, q, hq, hqe⟩ := (ho.slots w slots hw).2 slot hslot
  obtain rfl := eq_of_id_eq hq hp (by rw [← hid, ← hqe]; rfl)
  exact ⟨hsound, hqe.symm⟩

/-- The entries of a batch that was written with no terminal outcome for the task
are not the task's. -/
theorem Secure.write (h : Secure s t) {w : WorkerId} {b : Batch} {now : Timestamp} {call : Call}
    (hw : s.workers[w]? = some (.writing b))
    (hnone : ∀ o ∈ b.outcomes, o.testTaskId = t → o.newStatus.terminal = false) :
    Secure { s with
      stores := { s.stores with db := (runWrite b.outcomes now call s.stores.db).2 }
      workers := s.workers.set w
        (afterWrite (runWrite b.outcomes now call s.stores.db).1 b.entryIdsToAck) } t := by
  refine h.of_set rfl id rfl rfl ?_
  intro p hp ht hkeeps
  -- the entry is not one to acknowledge: the task would be terminal by now
  have hno : p.id ∉ b.entryIdsToAck := by
    intro hid
    obtain ⟨o, ho, hoid, hterm⟩ := hkeeps w _ hw hid
    rw [hnone o ho (hoid.trans ht)] at hterm
    cases hterm
  unfold afterWrite
  split
  · exact .inl (keeps_beforeAck hno)
  · exact .inl trivial

/-- An acknowledgement takes off only what its worker does not keep. -/
theorem Secure.ack (h : Secure s t) {w : WorkerId} {call : Call} {entryIds : List ℕ}
    (hw : s.workers[w]? = some (.acking entryIds)) :
    Secure { s with
      stream := (runAck entryIds call s.stream).2
      workers := s.workers.set w .idle } t := by
  rcases h with ⟨e, he, ht⟩ | hk | hk | ⟨p, hp, ht, hkeeps⟩
  · refine .inl ⟨e, ?_, ht⟩
    unfold runAck
    dsimp only
    split <;> exact he
  · exact .inr (.inl hk)
  · exact .inr (.inr (.inl hk))
  · exact .inr (.inr (.inr ⟨p, mem_pending_runAck hp (hkeeps w _ hw), ht, keeps_set hkeeps trivial⟩))

/-- The foreign keys of the tasks through a step. -/
theorem Rooted.step (h : Rooted s.stores.db) (hm : Move lib rateLimiter s a s') : Rooted s'.stores.db := by
  cases advance_of_move hm with
  | quiet hdb => exact hdb ▸ h
  | started _ _ _ _ _ hdb => exact hdb ▸ h
  | settled _ _ _ _ _ hdb => exact hdb ▸ h
  | lost _ hdb => exact hdb ▸ h
  | committed _ _ _ hok => exact (written_of_writeBatch hok).rooted h

theorem Custody.step (h : Custody s) (hb : Books s) (hf : a.faultless) (hn : noRelapse s a)
    (hm : Move lib rateLimiter s a s') : Custody s' := by
  refine ⟨h.rooted.step hm, h.owned.step hf hm, ?_⟩
  intro t row hrow hopen
  cases hm with
  | @consume w count now hw => exact (h.secure t row hrow hopen).consume h.owned w count now
  | @slot w i sa slots slot e hw hi hmove =>
    have hdb : e.stores.db = s.stores.db := by
      rcases db_of_move (.slot hw hi hmove) with ⟨_, _, _, _, he, -, -⟩ | ⟨-, hdb⟩
      · cases he
      · exact hdb
    rw [hdb] at hrow
    exact (h.secure t row hrow hopen).slot h.rooted h.owned hf hw hi hmove hrow
  | @gather w slots hw hall => exact (h.secure t row hrow hopen).gather h.owned hw
  | @write w now call b hw =>
    obtain rfl : call = .ok := by simpa [Action.faultless] using hf
    obtain ⟨⟨row₀, hrow₀, hopen₀⟩, hnone⟩ := open_before_write hb hw hn hrow hopen
    exact (h.secure t row₀ hrow₀ hopen₀).write hw hnone
  | @ack w call entryIds hw => exact (h.secure t row hrow hopen).ack hw
  | crash => cases hf
  | retryRange hs =>
    refine (h.secure t row hrow hopen).of_sweeper rfl rfl (fun e he => he) (fun hk => .inr (.inl hk)) ?_
    rw [hs]
    rintro ⟨⟩
  | @retryRemove call due hs =>
    obtain rfl : call = .ok := by simpa [Action.faultless] using hf
    refine (h.secure t row hrow hopen).of_sweeper rfl rfl (fun e he => he) (fun hk => ?_) ?_
    · by_cases hdue : t ∈ due
      · exact .inr (.inr (.inl hdue))
      · exact .inr (.inl (RetryQueue.mem_keys_remove.2 ⟨hk, hdue⟩))
    · rw [hs]
      rintro ⟨⟩
  | @retryEnqueue call u rest hs =>
    obtain rfl : call = .ok := by simpa [Action.faultless] using hf
    have hlog : (s.stream.enqueue u).undelivered = s.stream.undelivered ++ [⟨s.stream.log.length, u⟩] :=
      Stream.undelivered_enqueue _ _
    refine (h.secure t row hrow hopen).of_sweeper rfl rfl ?_ (fun hk => .inr (.inl hk)) ?_
    · intro e he
      exact hlog ▸ List.mem_append.2 (.inl he)
    · rw [hs]
      intro hk
      rcases List.mem_cons.1 hk with rfl | hk
      · refine .inl ⟨⟨s.stream.log.length, t⟩, ?_, rfl⟩
        exact hlog ▸ List.mem_append.2 (.inr (List.mem_singleton_self _))
      · exact .inr (.inr (.inl hk))
  | @retryReschedule now call u rest hs =>
    obtain rfl : call = .ok := by simpa [Action.faultless] using hf
    refine (h.secure t row hrow hopen).of_sweeper rfl rfl (fun e he => he)
      (fun hk => .inr (.inl (RetryQueue.mem_keys_scheduleRetry.2 (.inr hk)))) ?_
    rw [hs]
    intro hk
    rcases List.mem_cons.1 hk with rfl | hk
    · exact .inr (.inl (RetryQueue.mem_keys_scheduleRetry.2 (.inl rfl)))
    · exact .inr (.inr (.inl hk))
  | reclaim => cases hf
  | reclaimEnqueue => cases hf
  | reclaimAck => cases hf

theorem Fresh.custody (h : Fresh s) : Custody s := by
  refine ⟨?_, h.owned, ?_⟩
  · intro t row hrow
    exact h.parents row (Table.get?_eq_some_iff.1 hrow).1
  · intro t row hrow _
    have hkey : t ∈ s.stream.log := h.enqueued.mem_iff.2 (Table.get?_isSome_iff.1 (hrow ▸ rfl))
    have hall : s.stream.undelivered.map StreamEntry.taskId = s.stream.log := by
      rw [Stream.undelivered, h.undelivered, List.drop_zero, List.map_map]
      exact List.zipIdx_map_fst 0 _
    obtain ⟨e, he, ht⟩ := List.mem_map.1 (hall ▸ hkey)
    exact .inl ⟨e, he, ht⟩

/-- Along a run in which no call fails, no process dies and no RETRYING is written
over a terminal row, every task that is not terminal is still referenced. -/
theorem open_tasks_referenced {as : List Action} (h₀ : Fresh s₀)
    (hr : Run (step lib rateLimiter) s₀ as s)
    (hf : Each (step lib rateLimiter) (fun _ a => a.faultless) s₀ as)
    (hn : Each (step lib rateLimiter) (fun s a => noRelapse s a) s₀ as) :
    ∀ t row, s.stores.db.testTasks.get? t = some row → row.status.terminal = false → s.Referenced t := by
  have hinv : Books s ∧ Custody s := by
    refine hr.invariant (I := fun s => Books s ∧ Custody s) (hf.and hn) ⟨h₀.books, h₀.custody⟩ ?_
    intro u a u' ⟨hb, hc⟩ ⟨hf, hn⟩ hstep
    have hm := move_of_step hstep
    exact ⟨hb.step hm, hc.step hb hf hn hm⟩
  exact fun t row hrow hopen => (hinv.2.secure t row hrow hopen).referenced

end

/-- A failed attempt, acknowledged: its task waits on the retry set. -/
def failedOnce : List Action := iteration 0 failedReply 0 ++ [.ack 0 .ok]

theorem referenced_failedOnce : (final plainStep oneTask failedOnce).Referenced 0 := by
  have hr : Run plainStep oneTask failedOnce (final plainStep oneTask failedOnce) := run_final _ rfl
  exact open_tasks_referenced fresh_oneTask hr
    (each_of_eachB (p := fun _ a => a.faultless) (fun _ _ h => h) (by rfl))
    (each_of_eachB (p := noRelapse) (fun _ _ h => h) (by rfl)) 0 _ rfl rfl

/-- No call fails, and the task is RETRYING with no process to find it. -/
theorem not_referenced_staleRetry :
    Fresh twoTasks ∧ Run plainStep twoTasks staleRetry (final plainStep twoTasks staleRetry) ∧
      Each plainStep (fun _ a => a.faultless) twoTasks staleRetry ∧
      (∃ row ∈ (final plainStep twoTasks staleRetry).stores.db.testTasks.rows,
        row.id = 0 ∧ row.status = .retrying) ∧
      ¬ (final plainStep twoTasks staleRetry).Referenced 0 := by
  have hrows : (final plainStep twoTasks staleRetry).stores.db.testTasks.rows.map
      (fun row => (row.id, row.status)) = [(0, .retrying), (1, .completed)] := by rfl
  have hundelivered : (final plainStep twoTasks staleRetry).stream.undelivered = [] := by rfl
  have hpending : (final plainStep twoTasks staleRetry).stream.pending.rows = [] := by rfl
  have hkeys : (final plainStep twoTasks staleRetry).stores.retryPending.keys = [] := by rfl
  have hhand : (final plainStep twoTasks staleRetry).retrySweeper.inHand = [] := by rfl
  refine ⟨fresh_twoTasks, run_final _ rfl,
    each_of_eachB (p := fun _ a => a.faultless) (fun _ _ h => h) (by rfl), ?_, ?_⟩
  · obtain ⟨row, hrow, he⟩ := List.mem_map.1 (hrows ▸ List.mem_cons_self)
    obtain ⟨hid, hs⟩ := Prod.mk.inj he
    exact ⟨row, hrow, hid, hs⟩
  · simp [System.Referenced, hundelivered, hpending, hkeys, hhand]

end ApiTesting
