import ApiTesting.Proofs.Scheduling
import ApiTesting.Proofs.Commits
import ApiTesting.Proofs.Launch

/-! Terminal rows under repeated deliveries. `process_task` does not look at the
status it has read, so a row keeps its verdict only as long as each repeated
attempt comes to the same one. -/

namespace ApiTesting

open Keyed Machine

section
variable (lib : Libraries) (rateLimiter : Bool)

/-- The limiter puts the attempt off. -/
def putOff (v : TaskView) (chain : Dict String String) (allowed : Bool) : Bool :=
  rateLimiter && !allowed &&
    match resolveTemplate chain v.testRun.environmentVariables v.apiRequest.url with
    | .ok url =>
      match hostForUrl lib url with
      | .ok (some _) => true
      | _ => false
    | .error _ => false

/-- The row was COMPLETED and the answer passes again; or the attempt raises. -/
def repeats (v : TaskView) (chain : Dict String String) (reply : HttpReply) (db : Database) : Bool :=
  match execute v.apiRequest.timeoutMs (v.resolve chain) reply with
  | .error _ => true
  | .ok result =>
    match evaluateResult lib (db.assertionsOf v.apiRequest.id) v.apiRequest chain result with
    | .error _ => true
    | .ok ev =>
      match ev.encoded with
      | .error _ => true
      | .ok _ => v.testTask.status = .completed && ev.failureReasons.isEmpty

/-- The step does not put an attempt of `t` off, and judges none but as before. -/
def harmless (t : UUID) (s : System) (a : Action) : Bool :=
  match a with
  | .slot w i sa =>
    match s.slotAt? w i with
    | some slot =>
      match sa, slot.phase with
      | .send allowed _ _, .resolved v chain =>
        v.testTask.id ≠ t || !putOff lib rateLimiter v chain allowed
      | .settle reply _ _ _, .executing v chain =>
        v.testTask.id ≠ t || repeats lib v chain reply s.stores.db
      | _, _ => true
    | none => true
  | _ => true

variable {lib rateLimiter}

theorem passRateLimit_of_not_putOff {v : TaskView} {chain : Dict String String} {allowed : Bool}
    (h : putOff lib rateLimiter v chain allowed = false) (now : Timestamp) (call : Call) (st : Stores) :
    (passRateLimit lib rateLimiter v chain allowed now call st).2 = st := by
  unfold passRateLimit
  split
  · rename_i hrl
    unfold checkRateLimit
    unfold putOff at h
    split
    · rfl
    · rename_i hurl
      rw [hurl] at h
      simp only at h
      split
      · rfl
      · rfl
      · rename_i hhost
        rw [hhost, hrl] at h
        have hallowed : allowed = true := by simpa using h
        rw [if_pos hallowed]
  · rfl

theorem repeats_outcome {w : WorkerId} {v : TaskView} {chain : Dict String String}
    {reply : HttpReply} {now : Timestamp} {db : Database} {write : RedisWrite} {o : TaskOutcome}
    (h : repeats lib v chain reply db) (hj : judgeReply lib w v chain reply now db = .ok (write, o)) :
    v.testTask.status = .completed ∧ o.newStatus = .completed := by
  obtain ⟨result, ev, extracted, hx, hev, hextracted, hp⟩ := judgeReply_eq_ok hj
  simp only [repeats, hx, hev, hextracted, Bool.and_eq_true, decide_eq_true_eq] at h
  refine ⟨h.1, ?_⟩
  have ho : o = (decideOutcome v w result ev extracted now).2 := by rw [← hp]
  rw [ho, decideOutcome]
  simp only [h.2, if_true]

end

section
variable {lib : Libraries} {rateLimiter : Bool} {s₀ s₁ s s' : System} {a : Action} {t : UUID}

/-! No retry is left in a terminal row. -/

structure Cleared (s : System) : Prop where
  rows : ∀ k row, s.stores.db.testTasks.get? k = some row → row.status.terminal → row.nextRetryAt = none
  outcomes : ∀ o, .ended o ∈ s.attempts → o.newStatus.terminal → o.nextRetryAt = none

theorem Verdict.cleared {v : TaskView} {write : RedisWrite} {o : TaskOutcome} (h : Verdict v write o)
    (ht : o.newStatus.terminal) : o.nextRetryAt = none := by
  cases h with
  | completed _ _ _ hnext => exact hnext
  | retrying _ hs =>
    rw [hs] at ht
    cases ht
  | failed _ _ _ hnext => exact hnext

theorem Fresh.cleared (h : Fresh s) : Cleared s := by
  refine ⟨fun k row hrow _ => (h.waiting row (Table.get?_eq_some_iff.1 hrow).1).2.2, ?_⟩
  intro o ho
  rw [attempts_eq_zero h.idle] at ho
  cases ho

theorem Cleared.step (h : Cleared s) (hm : Move lib rateLimiter s a s') : Cleared s' := by
  have hsame : s'.stores.db = s.stores.db →
      (∀ o, .ended o ∈ s'.attempts → o.newStatus.terminal → o.nextRetryAt = none) → Cleared s' :=
    fun hdb ho => ⟨hdb ▸ h.rows, ho⟩
  cases advance_of_move hm with
  | quiet hdb hatt => exact hsame hdb (hatt ▸ h.outcomes)
  | started _ _ _ _ _ hdb hatt =>
    refine hsame hdb fun o ho => h.outcomes o ?_
    rw [hatt] at ho
    simpa using ho
  | settled _ _ _ _ hj hdb hs hs' =>
    refine hsame hdb fun q hq hterm => ?_
    rw [hs'] at hq
    rcases Multiset.mem_cons.1 hq with he | hq
    · cases he
      exact (judgeReply_concludes hj).verdict.cleared hterm
    · refine h.outcomes q ?_ hterm
      rw [hs]
      exact Multiset.mem_cons_of_mem hq
  | lost gone hdb hatt =>
    refine hsame hdb fun o ho => h.outcomes o ?_
    rw [hatt]
    exact Multiset.mem_add.2 (.inr ho)
  | @committed w now call b _ _ _ hok hatt =>
    have hout : ∀ o ∈ b.outcomes, o.newStatus.terminal → o.nextRetryAt = none := by
      intro o ho
      refine h.outcomes o ?_
      rw [hatt]
      exact Multiset.mem_add.2 (.inl (List.mem_map_of_mem ho))
    refine ⟨fun k row hrow hterm => ?_, fun o ho => h.outcomes o ?_⟩
    · obtain ⟨old, hold, ⟨rfl, -⟩ | ⟨o, ho, -, u, rfl⟩⟩ := (written_of_writeBatch hok).get?_testTasks hrow
      · exact h.rows k _ hold hterm
      · exact hout o ho hterm
    · rw [hatt]
      exact Multiset.mem_add.2 (.inr ho)

/-! A terminal row, and what is in flight for it. -/

/-- The columns a verdict sets. -/
structure SameVerdict (row row' : TestTask) : Prop where
  status : row'.status = row.status
  retryCount : row'.retryCount = row.retryCount
  nextRetryAt : row'.nextRetryAt = row.nextRetryAt

/-- The row of `t` is as in `row`, and every attempt in flight has read it so or
writes it so; `places` bounds the retries that are scheduled. -/
structure Absorbed (t : UUID) (row : TestTask) (places : ℕ) (s : System) : Prop where
  kept : ∃ row', s.stores.db.testTasks.get? t = some row' ∧ SameVerdict row row'
  running : ∀ v, .running v ∈ s.attempts → v.testTask.id = t → v.testTask.retryCount = row.retryCount ∧
    v.testTask.status = row.status
  ended : ∀ o, .ended o ∈ s.attempts → o.testTaskId = t →
    o.newStatus = row.status ∧ o.retryCount = row.retryCount ∧ o.nextRetryAt = row.nextRetryAt
  scheduled : s.scheduled t ≤ places

/-- A step of an attempt that is harmless for `t` leaves its retry as it is. -/
theorem lookup_of_harmless {w : WorkerId} {i : ℕ} {sa : SlotAction} (ha : harmless lib rateLimiter t s (.slot w i sa))
    (hm : Move lib rateLimiter s (.slot w i sa) s') :
    s'.stores.retryPending.lookup t = s.stores.retryPending.lookup t := by
  have hother : ∀ {u : UUID} {at_ : Timestamp}, u ≠ t →
      Dict.lookup (s.stores.retryPending.scheduleRetry u at_) t = s.stores.retryPending.lookup t := by
    intro u at_ hne
    rw [RetryQueue.scheduleRetry, Dict.lookup_put, if_neg hne.symm]
  cases hm with
  | @slot _ _ _ slots slot e hw hi hmove =>
    simp only [harmless, slotAt?_eq hw hi] at ha
    change e.stores.retryPending.lookup t = s.stores.retryPending.lookup t
    cases hmove with
    | @refused v chain allowed now call err st' hph hpass =>
      simp only [hph, Bool.or_eq_true, decide_eq_true_eq, Bool.not_eq_true'] at ha
      rcases ha with hne | hput
      · have hlim := passRateLimit_limited lib rateLimiter v chain allowed now call s.stores
        rw [hpass] at hlim
        cases hlim with
        | deferred => exact hother hne
        | raised _ hst =>
          rcases hst with rfl | ⟨at_, rfl⟩
          · rfl
          · exact hother hne
      · have hst := passRateLimit_of_not_putOff hput now call s.stores
        rw [hpass] at hst
        exact congrArg (fun st : Stores => st.retryPending.lookup t) hst
    | @sent v chain allowed now call st' hph hpass =>
      have hlim := passRateLimit_limited lib rateLimiter v chain allowed now call s.stores
      rw [hpass] at hlim
      cases hlim
      rfl
    | @judged v chain reply now call expireCall write o hph hj =>
      simp only [hph, Bool.or_eq_true, decide_eq_true_eq] at ha
      simp only [Stores.perform_retryPending]
      cases write with
      | scheduleRetry at_ =>
        rcases ha with hne | hrep
        · dsimp only
          split
          · exact hother hne
          · rfl
        · have hstatus := (repeats_outcome hrep hj).2
          cases (judgeReply_concludes hj).verdict with
          | completed hno => exact absurd rfl (hno at_)
          | retrying _ hs' =>
            rw [hs'] at hstatus
            cases hstatus
      | _ => rfl
    | _ => rfl

/-- The retry sweeper may put back a retry it has taken off and could not enqueue; other than
that, the step puts no retry of `t` on the set. -/
def AddsNoRetry (lib : Libraries) (rateLimiter : Bool) (t : UUID) (s : System) (a : Action) : Prop :=
  ∀ s' at_, step lib rateLimiter s a = some s' → s'.stores.retryPending.lookup t = some at_ →
    s.stores.retryPending.lookup t = some at_ ∨ ∃ rest, s.retrySweeper = .failed t rest

theorem addsNoRetry_of_harmless (ha : harmless lib rateLimiter t s a) : AddsNoRetry lib rateLimiter t s a := by
  intro s' at_ hstep hat
  have hm := move_of_step hstep
  cases hm with
  | slot hw hi hmove => exact .inl (lookup_of_harmless ha (.slot hw hi hmove) ▸ hat)
  | @retryRemove call due hs =>
    refine .inl ?_
    dsimp only at hat
    split at hat
    · rw [Dict.lookup_eq_some_iff] at hat ⊢
      exact (Table.mem_filter.1 hat).1
    · exact hat
  | @retryReschedule now call u rest hs =>
    by_cases hu : u = t
    · exact .inr ⟨rest, hu ▸ hs⟩
    · refine .inl ?_
      dsimp only at hat
      rw [Stores.scheduleRetry_retryPending] at hat
      split at hat
      · rwa [RetryQueue.scheduleRetry, Dict.lookup_put, if_neg (Ne.symm hu)] at hat
      · exact hat
  | _ => exact .inl hat

/-- An attempt that is harmless for its task adds no retry of it. -/
theorem scheduled_le_of_harmless {places : ℕ} (hr : RangedIn s) (hs : s.scheduled t ≤ places)
    (ha : harmless lib rateLimiter t s a) (hm : Move lib rateLimiter s a s') :
    s'.scheduled t ≤ places := by
  refine le_trans ?_ hs
  by_cases hslot : ∃ w i sa, a = .slot w i sa
  swap
  · exact scheduled_le_of_move hr hm (fun w i sa he => hslot ⟨w, i, sa, he⟩) t
  obtain ⟨w, i, sa, rfl⟩ := hslot
  have hkeys : t ∈ s'.stores.retryPending.keys ↔ t ∈ s.stores.retryPending.keys := by
    rw [← Dict.isSome_lookup_iff, ← Dict.isSome_lookup_iff, lookup_of_harmless ha hm]
  have hcount : s'.stores.retryPending.keys.count t = s.stores.retryPending.keys.count t := by
    rw [count_keys, count_keys]
    simp only [hkeys]
  cases hm with
  | slot hw hi hmove => exact Nat.add_le_add_right hcount.le _

/-- A write whose outcomes of `t` all repeat its verdict leaves the row with it. -/
theorem sameVerdict_of_write {outcomes : List TaskOutcome} {now : Timestamp} {db db' : Database}
    {row : TestTask} (hok : writeBatch outcomes now db = .ok db')
    (hkept : ∃ row', db.testTasks.get? t = some row' ∧ SameVerdict row row')
    (hended : ∀ o ∈ outcomes, o.testTaskId = t →
      o.newStatus = row.status ∧ o.retryCount = row.retryCount ∧ o.nextRetryAt = row.nextRetryAt) :
    ∃ row', db'.testTasks.get? t = some row' ∧ SameVerdict row row' := by
  obtain ⟨row₀, hrow₀, hsame⟩ := hkept
  have hwr := written_of_writeBatch hok
  have hget : ∃ row', db'.testTasks.get? t = some row' := by
    rw [hwr.testTasks, get?_foldl_applyOutcome, hrow₀]
    exact ⟨_, rfl⟩
  obtain ⟨row', hrow'⟩ := hget
  refine ⟨row', hrow', ?_⟩
  obtain ⟨old, hold, ⟨rfl, -⟩ | ⟨o, ho, hid, u, rfl⟩⟩ := hwr.get?_testTasks hrow'
  · rw [hrow₀] at hold
    cases hold
    exact hsame
  · obtain ⟨hstatus, hcount, hnext⟩ := hended o ho hid
    exact ⟨hstatus, hcount, hnext⟩

/-- An attempt that repeats the verdict it has read ends in an outcome with that verdict. -/
theorem verdict_of_repeats {w : WorkerId} {v : TaskView} {chain : Dict String String} {reply : HttpReply}
    {now : Timestamp} {db : Database} {write : RedisWrite} {o : TaskOutcome}
    (h : repeats lib v chain reply db) (hj : judgeReply lib w v chain reply now db = .ok (write, o)) :
    o.newStatus = v.testTask.status ∧ o.retryCount = v.testTask.retryCount ∧ o.nextRetryAt = none := by
  obtain ⟨hv, ho⟩ := repeats_outcome h hj
  rw [hv]
  cases (judgeReply_concludes hj).verdict with
  | completed _ _ hrc hnext => exact ⟨ho, hrc, hnext⟩
  | retrying _ hs =>
    rw [hs] at ho
    cases ho
  | failed _ hs =>
    rw [hs] at ho
    cases ho

theorem Absorbed.step {row : TestTask} {places : ℕ} (hclear : row.nextRetryAt = none) (h : Absorbed t row places s) (hr : RangedIn s)
    (ha : harmless lib rateLimiter t s a) (hm : Move lib rateLimiter s a s') :
    Absorbed t row places s' := by
  have hsched := scheduled_le_of_harmless hr h.scheduled ha hm
  cases advance_of_move hm with
  | quiet hdb hatt => exact ⟨hdb ▸ h.kept, hatt ▸ h.running, hatt ▸ h.ended, hsched⟩
  | @started w i slots slot v _ _ _ _ hload hdb hatt =>
    refine ⟨hdb ▸ h.kept, ?_, ?_, hsched⟩
    · intro v' hv' hid
      rw [hatt] at hv'
      rcases Multiset.mem_cons.1 hv' with he | hv'
      · cases he
        obtain ⟨row', hrow', hsame⟩ := h.kept
        obtain ⟨hget, -, -⟩ := loadTask_eq_ok_iff.1 hload
        rw [← (Table.get?_eq_some_iff.1 hget).2, hid, hrow'] at hget
        cases hget
        exact ⟨hsame.retryCount, hsame.status⟩
      · exact h.running v' hv' hid
    · intro o ho
      rw [hatt] at ho
      exact h.ended o (by simpa using ho)
  | @settled w i slots slot v chain reply now call expireCall write o rest he hw hi hph hj hdb hs hs' =>
    subst he
    refine ⟨hdb ▸ h.kept, ?_, ?_, hsched⟩
    · intro v' hv'
      rw [hs'] at hv'
      refine h.running v' ?_
      rw [hs]
      exact Multiset.mem_cons_of_mem (by simpa using hv')
    · intro o' ho' hid
      rw [hs'] at ho'
      rcases Multiset.mem_cons.1 ho' with he | ho'
      · cases he
        have hcon := judgeReply_concludes hj
        rw [hcon.testTaskId] at hid
        simp only [harmless, slotAt?_eq hw hi, hph, hid, ne_eq, not_true_eq_false, decide_false,
          Bool.false_or] at ha
        obtain ⟨hstatus, hcount, hnext⟩ := verdict_of_repeats ha hj
        obtain ⟨hcount', hstatus'⟩ := h.running v (hs ▸ Multiset.mem_cons_self _ _) hid
        exact ⟨hstatus.trans hstatus', hcount.trans hcount', hnext.trans hclear.symm⟩
      · refine h.ended o' ?_ hid
        rw [hs]
        exact Multiset.mem_cons_of_mem ho'
  | lost gone hdb hatt =>
    refine ⟨hdb ▸ h.kept, ?_, ?_, hsched⟩
    · intro v hv
      refine h.running v ?_
      rw [hatt]
      exact Multiset.mem_add.2 (.inr hv)
    · intro o ho
      refine h.ended o ?_
      rw [hatt]
      exact Multiset.mem_add.2 (.inr ho)
  | @committed w now call b _ _ _ hok hatt =>
    have hmem : ∀ b', b' ∈ s'.attempts → b' ∈ s.attempts := by
      intro b' hb'
      rw [hatt]
      exact Multiset.mem_add.2 (.inr hb')
    refine ⟨?_, fun v hv => h.running v (hmem _ hv), fun o ho => h.ended o (hmem _ ho), hsched⟩
    refine sameVerdict_of_write hok h.kept fun o ho => h.ended o ?_
    rw [hatt]
    exact Multiset.mem_add.2 (.inl (List.mem_map_of_mem ho))

/-- From a reachable state in which `t` is terminal and no attempt of it is in
flight, however often it is delivered again: as long as every repeated attempt is
harmless, its verdict stays and no step puts it back on the retry set. -/
theorem terminal_absorbing {as bs : List Action} {row : TestTask} (h₀ : Fresh s₀)
    (hr : Run (step lib rateLimiter) s₀ as s₁) (hrow : s₁.stores.db.testTasks.get? t = some row)
    (hterm : row.status.terminal) (hquiet : s₁.inFlight t = false)
    (hrun : Run (step lib rateLimiter) s₁ bs s)
    (hharm : Each (step lib rateLimiter) (fun s a => harmless lib rateLimiter t s a) s₁ bs) :
    (∃ row', s.stores.db.testTasks.get? t = some row' ∧ SameVerdict row row') ∧
      s.scheduled t ≤ s₁.scheduled t ∧
      Each (step lib rateLimiter) (AddsNoRetry lib rateLimiter t) s₁ bs := by
  have hclear : Cleared s₁ := hr.keeps h₀.cleared fun _ _ _ h hs => h.step (move_of_step hs)
  have hranged : RangedIn s₁ := by
    refine hr.keeps ?_ fun _ _ _ h hs => h.step (move_of_step hs)
    intro due hdue
    rw [h₀.retrySweeper] at hdue
    cases hdue
  have hnone := hclear.rows t row hrow hterm
  have hstart : Absorbed t row (s₁.scheduled t) s₁ := by
    refine ⟨⟨row, hrow, rfl, rfl, rfl⟩, ?_, ?_, le_refl _⟩
    · intro v hv hid
      exact absurd hid (inFlight_eq_false_iff.1 hquiet _ hv)
    · intro o ho hid
      exact absurd hid (inFlight_eq_false_iff.1 hquiet _ ho)
  have hinv : Absorbed t row (s₁.scheduled t) s ∧ RangedIn s := by
    refine hrun.invariant (I := fun s => Absorbed t row (s₁.scheduled t) s ∧ RangedIn s) hharm
      ⟨hstart, hranged⟩ ?_
    intro u b u' ⟨hu, hru⟩ hb hstep
    have hm := move_of_step hstep
    exact ⟨hu.step hnone hru hb hm, hru.step hm⟩
  exact ⟨hinv.1.kept, hinv.1.scheduled, hharm.mono fun _ _ => addsNoRetry_of_harmless⟩

end

/-- The task has completed, the acknowledgement was lost and the entry reclaimed. -/
def reclaimed : List Action := iteration 0 okReply 0 ++ lostAck 0 400000000

/-- The repeated attempt passes again. -/
theorem absorbing_reclaimed :
    ∃ row row', (final plainStep oneTask reclaimed).stores.db.testTasks.get? 0 = some row ∧
      (final plainStep (final plainStep oneTask reclaimed)
        (iteration 0 okReply 400000000)).stores.db.testTasks.get? 0 = some row' ∧
      SameVerdict row row' := by
  have hrow : ∃ row, (final plainStep oneTask reclaimed).stores.db.testTasks.get? 0 = some row ∧
      row.status.terminal := ⟨_, rfl, rfl⟩
  obtain ⟨row, hrow, hterm⟩ := hrow
  obtain ⟨⟨row', hrow', hsame⟩, -⟩ := terminal_absorbing (t := 0) fresh_oneTask
    (run_final reclaimed rfl) hrow hterm rfl
    (run_final (iteration 0 okReply 400000000) rfl)
    (each_of_eachB (p := harmless plainLibraries false 0) (fun _ _ h => h) (by rfl))
  exact ⟨row, row', hrow, hrow', hsame⟩

/-- The repeated attempt fails: the completed task is retried. -/
theorem not_absorbing_reclaimed :
    Fresh oneTask ∧ Run plainStep oneTask reclaimed (final plainStep oneTask reclaimed) ∧
      ((final plainStep oneTask reclaimed).stores.db.testTasks.get? 0).map TestTask.status =
        some .completed ∧
      ∃ s, Run plainStep (final plainStep oneTask reclaimed) (iteration 0 failedReply 400000000) s ∧
        (s.stores.db.testTasks.get? 0).map TestTask.status = some .retrying ∧
        (s.stores.db.testTasks.get? 0).map TestTask.retryCount = some 1 ∧
        0 ∈ s.stores.retryPending.keys :=
  ⟨fresh_oneTask, run_final _ rfl, rfl, _, run_final _ rfl, rfl, rfl, by decide⟩

end ApiTesting
