import ApiTesting.Lib.Amortized
import ApiTesting.Proofs.Absorbing
import ApiTesting.Proofs.Custody
import Mathlib.Algebra.Order.BigOperators.Group.List

/-! Every run completes. While no call fails, an entry is in the hand of a worker until it is
acknowledged and a task in somebody's hands until it is terminal; and each step towards that
is paid for out of a fixed allowance of the tasks, but for the steps of attempts the rate
limiter puts off. So the work comes to an end, and where it has, every run is COMPLETED. -/

namespace ApiTesting

open Keyed Machine Pool

/-- The step finds nothing to do. -/
def System.polls (s : System) : Action → Bool
  | .consume _ count _ => (s.stream.batch count).isEmpty
  | .retryRange now limit => (s.stores.retryPending.due now limit).isEmpty
  | _ => false

/-- The step is one of an attempt that ends in an exception nobody expects. -/
def crashes (lib : Libraries) (rateLimiter : Bool) (s : System) : Action → Bool
  | .slot w i sa =>
    match s.slotAt? w i with
    | some slot =>
      match slotStep lib rateLimiter w s.stores slot sa with
      | some ⟨.returned (.error e), _, _, _⟩ => !(e.cls = .taskProcessing || e.cls = .rateLimited)
      | _ => false
    | none => false
  | _ => false

/-- The step is one of an attempt the limiter puts off. -/
def defers (lib : Libraries) (rateLimiter : Bool) (s : System) : Action → Bool
  | .slot w i (.send allowed _ _) =>
    match s.slotAt? w i with
    | some ⟨_, .resolved v chain⟩ => putOff lib rateLimiter v chain allowed
    | _ => false
  | _ => false

/-- Nothing can be done but to poll. -/
def Exhausted (lib : Libraries) (rateLimiter : Bool) (s : System) : Prop :=
  ∀ a s', a.faultless → step lib rateLimiter s a = some s' → s.polls a

/-! What is left to do, in steps. An attempt takes eight of them, from the consume of its entry
to the acknowledgement; the sweeper takes three more to bring a retry back. -/

def Slot.stepsLeft (slot : Slot) : ℕ :=
  match slot.phase with
  | .delivered => 7
  | .loaded _ => 6
  | .resolved _ _ => 5
  | .executing _ _ => 4
  | .returned (.ok _) => 3
  | .returned (.error _) => 2

def WorkerState.stepsLeft : WorkerState → ℕ
  | .idle => 0
  | .gathering slots => (slots.map Slot.stepsLeft).sum
  | .writing _ => 2
  | .acking _ => 1

def RetrySweeper.taking : RetrySweeper → List UUID
  | .ranged due => due
  | _ => []

/-- The retry set, with what the sweeper is about to take off it and has in its hand. -/
def System.sweepsLeft (s : System) : ℕ :=
  10 * s.stores.retryPending.keys.length +
    (s.stores.retryPending.keys.filter fun t => t ∉ s.retrySweeper.taking).length +
      9 * s.retrySweeper.inHand.length

def Attempt.isRetry : Attempt → Bool
  | .ended o => o.newStatus = .retrying
  | .running _ => false

/-- The retries of a task that no attempt has come to yet. -/
def TestTask.retriesLeft (row : TestTask) (attempts : Multiset Attempt) : ℕ :=
  row.maxRetries - row.retryCount - attempts.countP fun b => b.isRetry

def System.retriesLeft (s : System) (t : UUID) : ℕ :=
  ((s.stores.db.testTasks.get? t).map fun row => row.retriesLeft (s.attemptsOf t)).getD 0

def System.stepsLeft (ts : List UUID) (s : System) : ℕ :=
  8 * s.stream.undelivered.length + (s.workers.map WorkerState.stepsLeft).sum + s.sweepsLeft +
    11 * (ts.map s.retriesLeft).sum

/-- What a task may cost: its first attempt, and its retries. -/
def TestTask.allowance (row : TestTask) : ℕ := 8 + 11 * row.maxRetries

/-- An entry that is pending is in the hand of a worker, which will acknowledge it. -/
structure Attended (s : System) : Prop where
  ranged : ∀ due, s.retrySweeper = .ranged due → due ≠ []
  noFailure : ∀ t rest, s.retrySweeper ≠ .failed t rest
  slots : ∀ (w : WorkerId) slots, s.workers[w]? = some (.gathering slots) →
    slots ≠ [] ∧ ∀ slot ∈ slots, ∀ e, slot.phase = .returned (.error e) → e.handled
  pending : ∀ p ∈ s.stream.pending.rows, ∃ (w : WorkerId) (x : WorkerState),
    s.workers[w]? = some x ∧ p.id ∈ x.entryIds

section
variable {lib : Libraries} {rateLimiter : Bool} {s₀ s s' : System} {a : Action} {t : UUID} {ts : List UUID}
  {at_ : Timestamp}

/-! One outcome at a time, and on an open row. -/

/-- A task with an outcome in flight has no other, and its row is open. -/
theorem Life.ended_inv {row : TestTask} {o : TaskOutcome} {m : Multiset Attempt} {u x n : ℕ}
    (h : Life row m u x n) (hm : .ended o ∈ m) : m = {.ended o} ∧ row.status.terminal = false := by
  cases h with
  | waiting => simp at hm
  | done => simp at hm
  | running =>
    cases Multiset.mem_singleton.1 hm
  | retrying h1 =>
    cases Multiset.mem_singleton.1 hm
    exact ⟨rfl, h1⟩
  | concluding h1 =>
    cases Multiset.mem_singleton.1 hm
    exact ⟨rfl, h1⟩

theorem landsOpen_of_nodup {q : TestTaskStatus → Bool} {db : Database} {outcomes : List TaskOutcome}
    (hnd : (outcomes.map TaskOutcome.testTaskId).Nodup)
    (hopen : ∀ o ∈ outcomes, (db.testTasks.get? o.testTaskId).all fun t => !t.status.terminal) :
    landsOpen q db outcomes := by
  induction outcomes generalizing db with
  | nil => rfl
  | cons o outcomes ih =>
    rw [List.map_cons, List.nodup_cons] at hnd
    simp only [landsOpen, Bool.and_eq_true, Bool.or_eq_true]
    refine ⟨.inr (hopen o List.mem_cons_self), ih hnd.2 fun p hp => ?_⟩
    have hne : p.testTaskId ≠ o.testTaskId := fun he => hnd.1 (he ▸ List.mem_map_of_mem hp)
    rw [get?_applyOutcome, if_neg hne]
    exact hopen p (List.mem_cons_of_mem o hp)

/-- Where every task is at a stage of its life, a batch writes over no terminal row. -/
theorem commitsOpen_of_budget (q : TestTaskStatus → Bool) (hb : Books s)
    (hlife : ∀ t row, s.stores.db.testTasks.get? t = some row → Budget t s) : commitsOpen q s a := by
  unfold commitsOpen
  split
  on_goal 2 => rfl
  rename_i w now call
  split
  on_goal 2 => rfl
  rename_i b hw
  rw [Bool.or_eq_true]
  refine .inr (landsOpen_of_nodup ?_ ?_)
  all_goals
    have hended : ∀ o ∈ b.outcomes, .ended o ∈ s.attempts := fun o ho =>
      mem_held.2 ⟨_, List.mem_of_getElem? hw, List.mem_map_of_mem ho⟩
    have hinv : ∀ o ∈ b.outcomes, ∃ row, s.stores.db.testTasks.get? o.testTaskId = some row ∧
        s.attemptsOf o.testTaskId = {.ended o} ∧ row.status.terminal = false := by
      intro o ho
      obtain ⟨⟨row, hrow, -⟩, -⟩ := hb.grounded _ (hended o ho)
      obtain ⟨row', hrow', hstage, -⟩ := hlife _ row hrow
      obtain ⟨hone, hopen⟩ := hstage.ended_inv (Multiset.mem_filter.2 ⟨hended o ho, rfl⟩)
      exact ⟨row', hrow', hone, hopen⟩
  · -- the outcomes of one task among those of all
    rw [List.nodup_iff_count_le_one]
    intro t
    by_cases ht : t ∈ b.outcomes.map TaskOutcome.testTaskId
    · obtain ⟨o, ho, rfl⟩ := List.mem_map.1 ht
      obtain ⟨-, -, hone, -⟩ := hinv o ho
      have hle : ((b.outcomes.map Attempt.ended : List Attempt) : Multiset Attempt) ≤ s.attempts :=
        coe_le_held (f := WorkerState.attempts) hw
      have hcount := Multiset.card_le_card (Multiset.filter_le_filter (fun c => c.taskId = o.testTaskId) hle)
      rw [show s.attempts.filter (fun c => c.taskId = o.testTaskId) = {.ended o} from hone,
        Multiset.card_singleton, Multiset.filter_coe, Multiset.coe_card, List.filter_map, List.length_map] at hcount
      rw [List.count_eq_countP, List.countP_map, List.countP_eq_length_filter]
      refine le_trans (le_of_eq ?_) hcount
      rfl
    · rw [List.count_eq_zero_of_not_mem ht]
      exact Nat.zero_le 1
  · intro o ho
    obtain ⟨row, hrow, -, hopen⟩ := hinv o ho
    rw [hrow, Option.all_some, hopen]
    rfl

/-! What is left to do never grows but by what the limiter puts off. -/

theorem slotStep_of_slotMove {w : WorkerId} {st : Stores} {slot : Slot} {sa : SlotAction} {e : SlotEffect}
    (h : SlotMove lib rateLimiter w st slot sa e) : slotStep lib rateLimiter w st slot sa = some e := by
  cases h with
  | load hph hload => simp only [slotStep, hph, hload]
  | missing hph hload => simp only [slotStep, hph, hload]
  | readContext hph => simp only [slotStep, hph]
  | refused hph hpass => simp only [slotStep, hph, hpass]
  | sent hph hpass => simp only [slotStep, hph, hpass]
  | @judged v chain reply now call expireCall write o hph hj =>
    simp only [slotStep, hph, settleTask_of_ok hj, hj]
    cases write <;> rfl
  | unjudged hph hj => simp only [slotStep, hph, settleTask, hj]
  | callRaised hph =>
    cases hphase : slot.phase with
    | returned r => exact absurd hphase (hph r)
    | _ => simp only [slotStep, hphase]

/-- An attempt that ends in an exception ends in an expected one. -/
theorem handled_of_slotMove {w : WorkerId} {i : ℕ} {slot : Slot} {sa : SlotAction} {e : SlotEffect} {err : Exn}
    (hm : SlotMove lib rateLimiter w s.stores slot sa e) (hat : s.slotAt? w i = some slot)
    (hc : crashes lib rateLimiter s (.slot w i sa) = false) (he : e.phase = .returned (.error err)) :
    err.handled := by
  obtain ⟨phase, st, sent, published⟩ := e
  obtain rfl : phase = .returned (.error err) := he
  simp only [crashes, hat, slotStep_of_slotMove hm] at hc
  simpa [Exn.handled, or_iff_not_imp_left] using hc

/-- The limiter puts off where it ends an attempt with an exception the loop expects. -/
theorem putOff_of_handled {v : TaskView} {chain : Dict String String} {allowed : Bool} {now : Timestamp} {call : Call}
    {st st' : Stores} {e : Exn} (h : passRateLimit lib rateLimiter v chain allowed now call st = (.error e, st'))
    (he : e.handled) : putOff lib rateLimiter v chain allowed := by
  unfold passRateLimit at h
  split at h
  on_goal 2 => cases h
  rename_i hlimiter
  unfold checkRateLimit at h
  unfold putOff
  split at h
  · rename_i err herr
    rw [if_pos (resolveTemplate_raises _ _ _ err herr)] at h
    cases h
  · rename_i url hurl
    split at h
    · rename_i err herr
      cases h
      exact absurd he (not_handled_of_library (hostForUrl_raises lib _ e herr))
    · cases h
    · rename_i host hhost
      split at h
      · cases h
      · rename_i hallowed
        simp [hlimiter, hallowed, hurl, hhost]

/-- A step that leaves the row and the attempts of a task as they are. -/
theorem retriesLeft_congr (hdb : s'.stores.db = s.stores.db) (hatt : s'.attempts = s.attempts) :
    s'.retriesLeft t = s.retriesLeft t := by
  rw [System.retriesLeft, System.retriesLeft, System.attemptsOf, System.attemptsOf, hdb, hatt]

theorem TestTask.retriesLeft_anti {row : TestTask} {m m' : Multiset Attempt}
    (h : m.countP (fun b => b.isRetry) ≤ m'.countP fun b => b.isRetry) : row.retriesLeft m' ≤ row.retriesLeft m :=
  Nat.sub_le_sub_left h _

/-- A batch takes the retries it commits off the outcomes in flight and puts them in the row. -/
theorem Life.retriesLeft_commit {row : TestTask} {outcomes : List TaskOutcome} {m m' : Multiset Attempt} {u x n : ℕ}
    (h : Life row m u x n) (hm : m = ↑(outcomes.map Attempt.ended) + m') :
    (outcomes.foldl TestTask.record row).retriesLeft m' ≤ row.retriesLeft m := by
  cases outcomes with
  | nil => simp [hm]
  | cons o outcomes =>
    have hmem : .ended o ∈ m := by simp [hm]
    obtain ⟨hone, -⟩ := h.ended_inv hmem
    obtain ⟨rfl, rfl⟩ : outcomes = [] ∧ m' = 0 := by
      have hcard := congrArg Multiset.card (hone.symm.trans hm)
      simp only [Multiset.card_singleton, Multiset.card_add, Multiset.coe_card, List.length_map, List.length_cons]
        at hcard
      exact ⟨List.length_eq_zero_iff.1 (by omega), Multiset.card_eq_zero.1 (by omega)⟩
    have hafter : ([o].foldl TestTask.record row).retriesLeft 0 = row.maxRetries - o.retryCount := rfl
    have hbefore : row.retriesLeft m = row.maxRetries - row.retryCount - if o.newStatus = .retrying then 1 else 0 := by
      rw [TestTask.retriesLeft, hone, ← Multiset.cons_zero, Multiset.countP_cons, Multiset.countP_zero, zero_add]
      simp [Attempt.isRetry]
    rw [hafter, hbefore]
    cases h with
    | waiting => simp at hmem
    | done => simp at hmem
    | running => cases Multiset.mem_singleton.1 hmem
    | retrying _ _ _ hs hrc =>
      cases Multiset.mem_singleton.1 hmem
      rw [if_pos hs]
      omega
    | concluding _ _ _ hs =>
      cases Multiset.mem_singleton.1 hmem
      rcases hs with ⟨hs, hrc⟩ | ⟨hs, hrc⟩ <;> rw [hs, if_neg (by decide)] <;> omega

theorem length_keys_scheduleRetry_le (q : RetryQueue) (t : UUID) (at_ : Timestamp) (p : UUID → Bool) :
    ((q.scheduleRetry t at_).keys.filter p).length ≤ (q.keys.filter p).length + 1 := by
  rw [RetryQueue.scheduleRetry, Dict.put, Table.keys_set]
  split
  · exact Nat.le_add_right _ 1
  · rw [List.filter_append, List.length_append]
    exact Nat.add_le_add_left (List.length_filter_le _ _) _

/-- A task put on the retry set has all the steps of the sweeper and of an attempt before it. -/
theorem sweepsLeft_scheduleRetry (hretry : s'.stores.retryPending = s.stores.retryPending.scheduleRetry t at_)
    (hsweeper : s'.retrySweeper = s.retrySweeper) : s'.sweepsLeft ≤ s.sweepsLeft + 11 := by
  have hall := length_keys_scheduleRetry_le s.stores.retryPending t at_ fun _ => true
  have hrest := length_keys_scheduleRetry_le s.stores.retryPending t at_ fun t => t ∉ s.retrySweeper.taking
  rw [List.filter_true, List.filter_true] at hall
  rw [System.sweepsLeft, System.sweepsLeft, hretry, hsweeper]
  omega

/-- A step of an attempt adds the retry it decides on. -/
theorem retries_of_slotMove {w : WorkerId} {i : ℕ} {slots : List Slot} {slot : Slot} {sa : SlotAction}
    {e : SlotEffect} (hw : s.workers[w]? = some (.gathering slots)) (hi : slots[i]? = some slot)
    (hm : SlotMove lib rateLimiter w s.stores slot sa e)
    (hs' : s'.workers = s.workers.set w (.gathering (slots.set i { slot with phase := e.phase }))) (t : UUID) :
    (s'.attemptsOf t).countP (fun b => b.isRetry) = (s.attemptsOf t).countP (fun b => b.isRetry) +
      ((e.phase.attempts : Multiset Attempt).filter fun b => b.taskId = t).countP fun b => b.isRetry := by
  have hnone : ((slot.attempts : Multiset Attempt).filter fun b => b.taskId = t).countP (fun b => b.isRetry) = 0 := by
    rw [Multiset.countP_eq_zero]
    intro b hb hretry
    have hmem : b ∈ slot.phase.attempts := (Multiset.mem_filter.1 hb).1
    cases hph : slot.phase with
    | delivered => simp [hph, Phase.attempts] at hmem
    | returned r => cases hm <;> simp_all
    | _ =>
      rw [hph] at hmem
      obtain rfl := List.mem_singleton.1 hmem
      cases hretry
  have hset := held_set_slot (f := WorkerState.attempts) (g := Slot.attempts) (fun _ => rfl) hw hi hs'
  have hcount := congrArg (fun m => (m.filter fun b => b.taskId = t).countP fun b => b.isRetry) hset
  simp only [Multiset.filter_add, Multiset.countP_add, hnone] at hcount
  exact hcount

theorem retriesLeft_le_of_slotMove {w : WorkerId} {i : ℕ} {slots : List Slot} {slot : Slot} {sa : SlotAction}
    {e : SlotEffect} (hw : s.workers[w]? = some (.gathering slots)) (hi : slots[i]? = some slot)
    (hm : SlotMove lib rateLimiter w s.stores slot sa e) (hst : s'.stores = e.stores)
    (hs' : s'.workers = s.workers.set w (.gathering (slots.set i { slot with phase := e.phase }))) (t : UUID) :
    s'.retriesLeft t ≤ s.retriesLeft t := by
  rw [System.retriesLeft, System.retriesLeft, hst, db_of_slotMove hm]
  cases s.stores.db.testTasks.get? t with
  | none => rfl
  | some row => exact row.retriesLeft_anti (retries_of_slotMove hw hi hm hs' t ▸ Nat.le_add_right _ _)

/-- The attempt that is to be repeated takes one of the retries of its task. -/
theorem retriesLeft_lt_of_retry {w : WorkerId} {i : ℕ} {slots : List Slot} {slot : Slot} {sa : SlotAction}
    {e : SlotEffect} {v : TaskView} {write : RedisWrite} {o : TaskOutcome}
    (hw : s.workers[w]? = some (.gathering slots)) (hi : slots[i]? = some slot)
    (hm : SlotMove lib rateLimiter w s.stores slot sa e) (hst : s'.stores = e.stores)
    (hs' : s'.workers = s.workers.set w (.gathering (slots.set i { slot with phase := e.phase })))
    (hbudget : Budget v.testTask.id s) (hv : .running v ∈ slot.attempts) (ho : Concludes v write o)
    (hretry : o.newStatus = .retrying) (hended : e.phase = .returned (.ok o)) :
    s'.retriesLeft v.testTask.id < s.retriesLeft v.testTask.id := by
  obtain ⟨row, hrow, hlife, -⟩ := hbudget
  obtain ⟨rfl, hone, -⟩ := hlife.running_inv (Multiset.mem_filter.2 ⟨mem_attempts_of_slot hw hi hv, rfl⟩)
  have hlt : v.testTask.retryCount < v.testTask.maxRetries := by
    cases ho.verdict with
    | completed _ hs => cases hs.symm.trans hretry
    | retrying h => exact h
    | failed _ hs => cases hs.symm.trans hretry
  have hcount := retries_of_slotMove hw hi hm hs' v.testTask.id
  have hnew : ((e.phase.attempts : Multiset Attempt).filter fun b => b.taskId = v.testTask.id).countP
      (fun b => b.isRetry) = 1 := by
    have hid : (Attempt.ended o).taskId = v.testTask.id := ho.testTaskId
    have hone : (Attempt.ended o).isRetry := decide_eq_true hretry
    rw [hended, Phase.attempts, Multiset.coe_singleton, Multiset.filter_singleton, if_pos hid, ← Multiset.cons_zero,
      Multiset.countP_cons, if_pos hone, Multiset.countP_zero]
  have hold : (s.attemptsOf v.testTask.id).countP (fun b => b.isRetry) = 0 := by
    rw [hone]
    rfl
  rw [System.retriesLeft, System.retriesLeft, hst, db_of_slotMove hm, hrow]
  simp only [Option.map_some, Option.getD_some, TestTask.retriesLeft]
  omega

theorem retriesLeft_le_of_write (hb : Books s) (hbudget : Budget t s) {w : WorkerId} {b : Batch} {now : Timestamp}
    (hw : s.workers[w]? = some (.writing b))
    (hdb : s'.stores.db = (runWrite b.outcomes now .ok s.stores.db).2)
    (hatt : s.attempts = ↑(b.outcomes.map Attempt.ended) + s'.attempts) :
    s'.retriesLeft t ≤ s.retriesLeft t := by
  obtain ⟨row, hrow, hlife, -⟩ := hbudget
  have hm : s.attemptsOf t =
      ↑((b.outcomes.filter fun o => o.testTaskId = t).map Attempt.ended) + s'.attemptsOf t := by
    rw [System.attemptsOf, hatt, Multiset.filter_add, Multiset.filter_coe, List.filter_map]
    rfl
  have hrow' : s'.stores.db.testTasks.get? t =
      some ((b.outcomes.filter fun o => o.testTaskId = t).foldl TestTask.record row) := by
    rw [hdb, (hb.written hw rfl now).1.testTasks, get?_foldl_applyOutcome, hrow]
    rfl
  rw [System.retriesLeft, System.retriesLeft, hrow, hrow']
  exact hlife.retriesLeft_commit hm

/-- One worker's part of what is left to do. -/
theorem stepsLeft_set {ws : List WorkerState} {w : WorkerId} {old : WorkerState} (hw : ws[w]? = some old)
    (new : WorkerState) :
    ((ws.set w new).map WorkerState.stepsLeft).sum + old.stepsLeft =
      (ws.map WorkerState.stepsLeft).sum + new.stepsLeft := sum_map_set hw new

theorem stepsLeft_afterConsume (batch : List StreamEntry) : (afterConsume batch).stepsLeft = 7 * batch.length := by
  unfold afterConsume
  split
  · rename_i hnil
    rw [List.isEmpty_iff.1 hnil]
    rfl
  · have hconst : (Slot.stepsLeft ∘ fun e => ⟨e, .delivered⟩ : StreamEntry → ℕ) = Function.const _ 7 := rfl
    rw [WorkerState.stepsLeft, List.map_map, hconst, List.map_const, List.sum_const_nat, Nat.mul_comm]

theorem stepsLeft_beforeAck_le (entryIds : List ℕ) : (beforeAck entryIds).stepsLeft ≤ 1 := by
  unfold beforeAck
  split
  · exact Nat.zero_le 1
  · exact le_rfl

theorem stepsLeft_afterWrite_le (result : Except Exn Unit) (entryIds : List ℕ) :
    (afterWrite result entryIds).stepsLeft ≤ 1 := by
  cases result with
  | error e => exact Nat.zero_le 1
  | ok => exact stepsLeft_beforeAck_le entryIds

/-- A batch that is handed over has less left to do than its attempts had. -/
theorem stepsLeft_afterGather_lt {slots : List Slot} (hne : slots ≠ []) :
    (afterGather (collect (slots.filterMap Slot.result?))).stepsLeft < (WorkerState.gathering slots).stepsLeft := by
  have htwo : ∀ slot ∈ slots, 2 ≤ slot.stepsLeft := fun slot _ => by
    unfold Slot.stepsLeft
    split <;> decide
  have hle : ∀ slot ∈ slots, slot.stepsLeft ≤ (slots.map Slot.stepsLeft).sum := fun slot hslot =>
    List.le_sum_of_mem (List.mem_map_of_mem hslot)
  rw [WorkerState.stepsLeft]
  unfold afterGather
  split
  · obtain ⟨slot, hslot⟩ := List.exists_mem_of_ne_nil slots hne
    have := stepsLeft_beforeAck_le (collect (slots.filterMap Slot.result?)).entryIdsToAck
    have := htwo slot hslot
    have := hle slot hslot
    omega
  · rename_i houtcomes
    -- an outcome costs a write
    obtain ⟨o, ho⟩ := List.exists_mem_of_ne_nil _ fun h => houtcomes (List.isEmpty_iff.2 h)
    obtain ⟨j, hj⟩ := mem_collect_outcomes.1 ho
    obtain ⟨slot, hslot, hres⟩ := List.mem_filterMap.1 hj
    have hthree : slot.stepsLeft = 3 := by
      unfold Slot.result? at hres
      unfold Slot.stepsLeft
      split at hres
      · rename_i r hph
        cases r with
        | ok => rw [hph]
        | error e =>
          simp only [processEntry] at hres
          split at hres <;> cases hres
      · cases hres
    have := hle slot hslot
    rw [WorkerState.stepsLeft]
    omega

/-- A step of an attempt pays for itself, but where the limiter puts the attempt off. -/
theorem pays_of_slotMove {w : WorkerId} {i : ℕ} {slots : List Slot} {slot : Slot} {sa : SlotAction} {e : SlotEffect}
    (hw : s.workers[w]? = some (.gathering slots)) (hi : slots[i]? = some slot)
    (hm : SlotMove lib rateLimiter w s.stores slot sa e) (hf : (Action.slot w i sa).faultless)
    (hc : crashes lib rateLimiter s (.slot w i sa) = false)
    (hbudget : ∀ t row, s.stores.db.testTasks.get? t = some row → Budget t s) (hb : Books s)
    (hts : ∀ t row, s.stores.db.testTasks.get? t = some row → t ∈ ts)
    (hst : s'.stores = e.stores) (hstream : s'.stream = s.stream) (hsweeper : s'.retrySweeper = s.retrySweeper)
    (hs' : s'.workers = s.workers.set w (.gathering (slots.set i { slot with phase := e.phase }))) :
    s'.stepsLeft ts + 1 ≤ s.stepsLeft ts + if defers lib rateLimiter s (.slot w i sa) then 9 else 0 := by
  obtain ⟨after, hafter⟩ : ∃ n, n = Slot.stepsLeft { slot with phase := e.phase } := ⟨_, rfl⟩
  have hpot : s'.stepsLeft ts + slot.stepsLeft + s.sweepsLeft + 11 * (ts.map s.retriesLeft).sum =
      s.stepsLeft ts + after + s'.sweepsLeft + 11 * (ts.map s'.retriesLeft).sum := by
    have hslots : (WorkerState.gathering (slots.set i { slot with phase := e.phase })).stepsLeft + slot.stepsLeft =
        (WorkerState.gathering slots).stepsLeft + Slot.stepsLeft { slot with phase := e.phase } := sum_map_set hi _
    have hworkers := stepsLeft_set hw (.gathering (slots.set i { slot with phase := e.phase }))
    simp only [System.stepsLeft, hstream, hs']
    omega
  have hle := retriesLeft_le_of_slotMove hw hi hm hst hs'
  have hretries : (ts.map s'.retriesLeft).sum ≤ (ts.map s.retriesLeft).sum := List.sum_le_sum fun t _ => hle t
  -- an attempt that leaves the retry set alone has one step less to go
  have hquiet : e.stores.retryPending = s.stores.retryPending → after < slot.stepsLeft →
      s'.stepsLeft ts + 1 ≤ s.stepsLeft ts := by
    intro hretry hlt
    have hsweeps : s'.sweepsLeft = s.sweepsLeft := by
      rw [System.sweepsLeft, System.sweepsLeft, hst, hretry, hsweeper]
    omega
  have hat := slotAt?_eq hw hi
  have hmove := hm
  cases hm with
  | load hph => exact (hquiet rfl (by simp [hafter, Slot.stepsLeft, hph])).trans (Nat.le_add_right _ _)
  | missing hph => exact (hquiet rfl (by simp [hafter, Slot.stepsLeft, hph])).trans (Nat.le_add_right _ _)
  | readContext hph => exact (hquiet rfl (by simp [hafter, Slot.stepsLeft, hph])).trans (Nat.le_add_right _ _)
  | @refused v chain allowed now call err st' hph hpass =>
    have hhandled := handled_of_slotMove (.refused hph hpass) hat hc rfl
    have hlim := passRateLimit_limited lib rateLimiter v chain allowed now call s.stores
    rw [hpass] at hlim
    cases hlim with
    | raised hnot => exact absurd hhandled hnot
    | @deferred _ at_ =>
      have hscheduled : s'.stores.retryPending = s.stores.retryPending.scheduleRetry v.testTask.id at_ := by rw [hst]
      have hsweeps := sweepsLeft_scheduleRetry hscheduled hsweeper
      have hdefers : defers lib rateLimiter s (.slot w i (.send allowed now call)) := by
        obtain ⟨entry, phase⟩ := slot
        obtain rfl : phase = .resolved v chain := hph
        simpa only [defers, hat] using putOff_of_handled hpass hhandled
      have hbefore : slot.stepsLeft = 5 := by simp [Slot.stepsLeft, hph]
      have hafter : after = 2 := hafter
      rw [if_pos hdefers]
      omega
  | @sent v chain allowed now call st' hph hpass =>
    have hlim := passRateLimit_limited lib rateLimiter v chain allowed now call s.stores
    rw [hpass] at hlim
    cases hlim
    exact (hquiet rfl (by simp [hafter, Slot.stepsLeft, hph])).trans (Nat.le_add_right _ _)
  | @judged v chain reply now call expireCall write o hph hj =>
    simp only [Action.faultless, Bool.and_eq_true, decide_eq_true_eq] at hf
    obtain ⟨rfl, rfl⟩ := hf
    have hret : (s.stores.perform v write now .ok .ok).1 = .ok () := by cases write <;> rfl
    have hcon := judgeReply_concludes hj
    have hbefore : slot.stepsLeft = 4 := by simp [Slot.stepsLeft, hph]
    have hafter : after = 3 := by
      rw [hafter, hret]
      rfl
    have hkeys := s.stores.perform_retryPending v write now .ok .ok
    by_cases hretry : o.newStatus = .retrying
    · have hv : .running v ∈ slot.attempts := by simp [Slot.attempts, hph, Phase.attempts]
      obtain ⟨⟨row, hrow, -⟩, -⟩ := hb.grounded _ (mem_attempts_of_slot hw hi hv)
      have hlt : (ts.map s'.retriesLeft).sum < (ts.map s.retriesLeft).sum := by
        refine List.sum_lt_sum _ _ (fun t _ => hle t) ⟨v.testTask.id, hts _ row hrow, ?_⟩
        refine retriesLeft_lt_of_retry hw hi hmove hst hs' (hbudget _ row hrow) hv hcon hretry ?_
        rw [hret]
        rfl
      have hsweeps : s'.sweepsLeft ≤ s.sweepsLeft + 11 := by
        cases hcon.verdict with
        | completed _ hs => cases hs.symm.trans hretry
        | failed _ hs => cases hs.symm.trans hretry
        | @retrying at_ =>
          have hscheduled : s'.stores.retryPending = s.stores.retryPending.scheduleRetry v.testTask.id at_ := by
            rw [hst, hkeys]
            rfl
          exact sweepsLeft_scheduleRetry hscheduled hsweeper
      omega
    · refine (hquiet ?_ (by omega)).trans (Nat.le_add_right _ _)
      rw [hkeys]
      cases hcon.verdict with
      | completed hno => cases write with
        | scheduleRetry at_ => exact absurd rfl (hno at_)
        | _ => rfl
      | retrying _ hs => exact absurd hs hretry
      | failed => rfl
  | unjudged hph => exact (hquiet rfl (by simp [hafter, Slot.stepsLeft, hph])).trans (Nat.le_add_right _ _)
  | callRaised => simp [Action.faultless] at hf

/-- A step of one worker is paid out of what the worker has left to do. -/
theorem pays_of_set {w : WorkerId} {old new : WorkerState} {cost : ℕ} (hw : s.workers[w]? = some old)
    (hworkers : s'.workers = s.workers.set w new) (hsweeps : s'.sweepsLeft = s.sweepsLeft)
    (hretries : ∀ t ∈ ts, s'.retriesLeft t ≤ s.retriesLeft t)
    (hle : new.stepsLeft + 8 * s'.stream.undelivered.length + cost ≤
      old.stepsLeft + 8 * s.stream.undelivered.length) : s'.stepsLeft ts + cost ≤ s.stepsLeft ts := by
  have hset := stepsLeft_set hw new
  have hsum : (ts.map s'.retriesLeft).sum ≤ (ts.map s.retriesLeft).sum := List.sum_le_sum hretries
  simp only [System.stepsLeft, hworkers, hsweeps]
  omega

/-- And one of the retry sweeper out of what is on the retry set. -/
theorem pays_of_sweeper {cost : ℕ} (hworkers : s'.workers = s.workers) (hdb : s'.stores.db = s.stores.db)
    (hle : s'.sweepsLeft + 8 * s'.stream.undelivered.length + cost ≤
      s.sweepsLeft + 8 * s.stream.undelivered.length) : s'.stepsLeft ts + cost ≤ s.stepsLeft ts := by
  have hatt : s'.attempts = s.attempts := by rw [System.attempts, System.attempts, hworkers]
  have hretries : ts.map s'.retriesLeft = ts.map s.retriesLeft :=
    List.map_congr_left fun t _ => retriesLeft_congr hdb hatt
  simp only [System.stepsLeft, hworkers, hretries]
  omega

/-- What is taken off the retry set, and what stays on it. -/
theorem length_keys_remove {q : RetryQueue} {due : List UUID} (hnd : due.Nodup) (hdue : ∀ t ∈ due, t ∈ q.keys) :
    (q.remove due).keys = q.keys.filter (fun t => t ∉ due) ∧
      q.keys.length = (q.keys.filter fun t => t ∉ due).length + due.length := by
  refine ⟨?_, ?_⟩
  · rw [RetryQueue.remove, Table.keys, Table.keys, List.filter_map]
    rfl
  · have hperm : (q.keys.filter fun t => t ∈ due).Perm due := by
      refine (List.perm_ext_iff_of_nodup (q.nodup_keys.filter _) hnd).2 fun t => ?_
      simp only [List.mem_filter, decide_eq_true_eq]
      exact ⟨fun h => h.2, fun h => ⟨hdue t h, h⟩⟩
    have hsplit := List.length_eq_length_filter_add (l := q.keys) fun t => decide (t ∈ due)
    simp only [← decide_not] at hsplit
    rw [← hperm.length_eq, Nat.add_comm]
    exact hsplit

/-! The hands the entries are in. -/

theorem mem_entryIds_of_beforeAck {entryIds : List ℕ} {id : ℕ} (h : id ∈ entryIds) :
    id ∈ (beforeAck entryIds).entryIds := by
  unfold beforeAck
  split
  · rename_i hnil
    rw [List.isEmpty_iff.1 hnil] at h
    cases h
  · exact h

/-- Where every exception was expected, a batch hands all its entries over. -/
theorem mem_entryIds_gathered {slots : List Slot} {id : ℕ} (hall : ∀ slot ∈ slots, slot.result?.isSome)
    (hhandled : ∀ slot ∈ slots, ∀ e, slot.phase = .returned (.error e) → e.handled)
    (h : id ∈ (WorkerState.gathering slots).entryIds) :
    id ∈ (afterGather (collect (slots.filterMap Slot.result?))).entryIds := by
  have hid : id ∈ (collect (slots.filterMap Slot.result?)).entryIdsToAck := by
    obtain ⟨slot, hslot, rfl⟩ := List.mem_map.1 h
    obtain ⟨r, hr⟩ := Option.isSome_iff_exists.1 (hall slot hslot)
    suffices hok : ∃ o, r = .ok (slot.entry.entryId, o) by
      obtain ⟨o, rfl⟩ := hok
      exact mem_collect_ids.2 ⟨o, List.mem_filterMap.2 ⟨slot, hslot, hr⟩⟩
    unfold Slot.result? at hr
    split at hr
    · rename_i result hph
      cases hr
      cases result with
      | ok o => exact ⟨some o, rfl⟩
      | error e =>
        refine ⟨none, ?_⟩
        rw [processEntry]
        exact if_pos (hhandled slot hslot e hph)
    · cases hr
  unfold afterGather
  split
  · exact mem_entryIds_of_beforeAck hid
  · exact hid

/-- A step of one worker that lets go only of entries that are no longer pending. -/
theorem Attended.of_set (h : Attended s) {w : WorkerId} {old new : WorkerState} (hw : s.workers[w]? = some old)
    (hworkers : s'.workers = s.workers.set w new) (hsweeper : s'.retrySweeper = s.retrySweeper)
    (hslots : ∀ slots, new = .gathering slots →
      slots ≠ [] ∧ ∀ slot ∈ slots, ∀ e, slot.phase = .returned (.error e) → e.handled)
    (hpending : ∀ p ∈ s'.stream.pending.rows, p.id ∈ new.entryIds ∨
      p ∈ s.stream.pending.rows ∧ (p.id ∈ old.entryIds → p.id ∈ new.entryIds)) : Attended s' where
  ranged := hsweeper ▸ h.ranged
  noFailure := hsweeper ▸ h.noFailure
  slots := by
    intro v slots hv
    rw [hworkers] at hv
    rcases of_getElem?_set hv with ⟨-, he⟩ | ⟨-, hv⟩
    · exact hslots slots he.symm
    · exact h.slots v slots hv
  pending := by
    intro p hp
    have hnew : p.id ∈ new.entryIds → ∃ (v : WorkerId) (x : WorkerState), s'.workers[v]? = some x ∧ p.id ∈ x.entryIds := by
      intro hid
      refine ⟨w, new, ?_, hid⟩
      rw [hworkers, List.getElem?_set_self (List.getElem?_eq_some_iff.1 hw).1]
    rcases hpending p hp with hid | ⟨hp, hkept⟩
    · exact hnew hid
    · obtain ⟨v, x, hv, hid⟩ := h.pending p hp
      by_cases he : v = w
      · subst he
        obtain rfl := Option.some.inj (hv.symm.trans hw)
        exact hnew (hkept hid)
      · exact ⟨v, x, by rw [hworkers, List.getElem?_set_ne (Ne.symm he), hv], hid⟩

/-- A step of the retry sweeper. -/
theorem Attended.of_sweeper (h : Attended s) (hworkers : s'.workers = s.workers)
    (hpending : s'.stream.pending = s.stream.pending) (hranged : ∀ due, s'.retrySweeper = .ranged due → due ≠ [])
    (hfailed : ∀ t rest, s'.retrySweeper ≠ .failed t rest) : Attended s' where
  ranged := hranged
  noFailure := hfailed
  slots := hworkers ▸ h.slots
  pending := by
    rw [hpending, hworkers]
    exact h.pending

theorem Attended.step (h : Attended s) (hb : Books s) (hf : a.faultless) (hc : crashes lib rateLimiter s a = false)
    (hm : Move lib rateLimiter s a s') : Attended s' := by
  cases hm with
  | @consume w count now hw =>
    refine h.of_set hw rfl rfl (fun slots he => ?_) fun p hp => ?_
    · unfold afterConsume at he
      split at he
      · cases he
      · rename_i hne
        cases he
        refine ⟨fun hnil => hne (List.isEmpty_iff.2 (List.map_eq_nil_iff.1 hnil)), fun slot hslot e hph => ?_⟩
        obtain ⟨_, -, rfl⟩ := List.mem_map.1 hslot
        cases hph
    · rcases List.mem_append.1 hp with hp | hp
      · exact .inr ⟨hp, fun hid => by cases hid⟩
      · obtain ⟨e, he, rfl⟩ := List.mem_map.1 hp
        rw [entryIds_afterConsume]
        exact .inl (List.mem_map_of_mem he)
  | @slot w i sa slots slot e hw hi hmove =>
    obtain ⟨hne, hhandled⟩ := h.slots w slots hw
    refine h.of_set hw rfl rfl (fun slots' he => ?_) fun p hp => .inr ⟨hp, fun hid => ?_⟩
    · cases he
      refine ⟨fun hnil => hne ((List.set_eq_nil_iff _ _).1 hnil), fun slot' hslot' err hph => ?_⟩
      rcases List.mem_or_eq_of_mem_set hslot' with hslot' | rfl
      · exact hhandled slot' hslot' err hph
      · exact handled_of_slotMove hmove (slotAt?_eq hw hi) hc hph
    · rwa [WorkerState.entryIds, entryIds_set_slot hi]
  | @gather w slots hw hall =>
    refine h.of_set hw rfl rfl (fun slots' he => absurd he (afterGather_ne_gathering _ slots')) fun p hp => ?_
    exact .inr ⟨hp, mem_entryIds_gathered hall (h.slots w slots hw).2⟩
  | @write w now call b hw =>
    obtain rfl : call = .ok := by simpa [Action.faultless] using hf
    refine h.of_set hw rfl rfl (fun slots' he => absurd he (afterWrite_ne_gathering _ _ slots')) fun p hp =>
      .inr ⟨hp, fun hid => ?_⟩
    have hparents : ∀ o ∈ b.outcomes, hasParents s.stores.db o := fun o ho =>
      hasParents_of_grounded (hb.grounded _ (mem_held.2 ⟨_, List.mem_of_getElem? hw, List.mem_map_of_mem ho⟩))
    obtain ⟨db, hdb⟩ := writeBatch_isOk now hparents
    have hreturned : (runWrite b.outcomes now .ok s.stores.db).1 = .ok () := by simp [runWrite, hdb]
    rw [hreturned]
    exact mem_entryIds_of_beforeAck hid
  | @ack w call entryIds hw =>
    obtain rfl : call = .ok := by simpa [Action.faultless] using hf
    refine h.of_set hw rfl rfl (fun slots' he => by cases he) fun p hp => ?_
    obtain ⟨hp, hid⟩ := Table.mem_filter.1 hp
    exact .inr ⟨hp, fun hmem => absurd hmem (of_decide_eq_true hid)⟩
  | crash => cases hf
  | @retryRange now limit hs =>
    refine h.of_sweeper rfl rfl (fun due he => ?_) fun t rest he => ?_
    · dsimp only at he
      split at he
      · cases he
      · rename_i hne
        cases he
        exact fun hnil => hne (List.isEmpty_iff.2 hnil)
    · dsimp only at he
      split at he <;> cases he
  | @retryRemove call due hs => exact h.of_sweeper rfl rfl (fun _ he => by cases he) fun _ _ he => by cases he
  | @retryEnqueue call u rest hs =>
    obtain rfl : call = .ok := by simpa [Action.faultless] using hf
    exact h.of_sweeper rfl rfl (fun _ he => by cases he) fun _ _ he => by cases he
  | retryReschedule hs => exact absurd hs (h.noFailure _ _)
  | reclaim => cases hf
  | reclaimEnqueue => cases hf
  | reclaimAck => cases hf

theorem Fresh.attended (h : Fresh s) : Attended s where
  ranged := fun due hs => by cases h.retrySweeper.symm.trans hs
  noFailure := fun t rest hs => by cases h.retrySweeper.symm.trans hs
  slots := fun w slots hw => by cases h.idle _ (List.mem_of_getElem? hw)
  pending := fun p hp => absurd (s.stream.pending_lt p hp) (by rw [h.undelivered]; exact Nat.not_lt_zero _)

/-- What holds of every state of such a run; `ts` are the tasks. -/
structure Working (ts : List UUID) (s : System) : Prop where
  books : Books s
  ledger : Ledger s
  ranged : RangedIn s
  custody : Custody s
  attended : Attended s
  served : 0 < s.workers.length
  tasks : s.stores.db.testTasks.keys = ts
  budget : ∀ t row, s.stores.db.testTasks.get? t = some row → Budget t s

/-- Every step pays for itself, but for a poll, which costs nothing, and for one that puts an
attempt off. -/
theorem Working.pays (h : Working ts s) (hf : a.faultless) (hc : crashes lib rateLimiter s a = false)
    (hm : Move lib rateLimiter s a s') :
    s'.stepsLeft ts + (if s.polls a then 0 else 1) ≤
      s.stepsLeft ts + if defers lib rateLimiter s a then 9 else 0 := by
  by_cases hslot : ∃ w i sa, a = .slot w i sa
  · obtain ⟨w, i, sa, rfl⟩ := hslot
    cases hm with
    | slot hw hi hmove =>
      refine pays_of_slotMove hw hi hmove hf hc h.budget h.books (fun t row hrow => ?_) rfl rfl rfl rfl
      exact h.tasks ▸ Table.get?_isSome_iff.1 (hrow ▸ rfl)
  refine le_trans ?_ (Nat.le_add_right _ _)
  cases hm with
  | slot => exact absurd ⟨_, _, _, rfl⟩ hslot
  | @consume w count now hw =>
    refine pays_of_set hw rfl rfl
      (fun t _ => le_of_eq (retriesLeft_congr rfl (attempts_kept hw rfl (attempts_afterConsume _)))) ?_
    have hcost : (if s.polls (.consume w count now) then 0 else 1) ≤ (s.stream.undelivered.take count).length := by
      split
      · exact Nat.zero_le _
      · rename_i hpoll
        exact List.length_pos_iff.2 fun hnil => hpoll (List.isEmpty_iff.2 hnil)
    have hsplit := congrArg List.length (List.take_append_drop count s.stream.undelivered)
    rw [List.length_append] at hsplit
    rw [stepsLeft_afterConsume, Stream.undelivered_consume, Stream.batch]
    simp only [WorkerState.stepsLeft]
    omega
  | @gather w slots hw hall =>
    refine pays_of_set hw rfl rfl
      (fun t _ => le_of_eq (retriesLeft_congr rfl (attempts_kept hw rfl (attempts_gathered hall)))) ?_
    have hlt := stepsLeft_afterGather_lt (h.attended.slots w slots hw).1
    simp only [System.polls, Bool.false_eq_true, if_false]
    omega
  | @write w now call b hw =>
    obtain rfl : call = .ok := by simpa [Action.faultless] using hf
    refine pays_of_set hw rfl rfl (fun t ht => ?_) ?_
    · rw [← h.tasks] at ht
      obtain ⟨row, hrow⟩ := Option.isSome_iff_exists.1 (Table.get?_isSome_iff.2 ht)
      exact retriesLeft_le_of_write h.books (h.budget t row hrow) hw rfl
        (attempts_dropped hw rfl (attempts_afterWrite _ _))
    · have hle := stepsLeft_afterWrite_le (runWrite b.outcomes now .ok s.stores.db).1 b.entryIdsToAck
      have hold : (WorkerState.writing b).stepsLeft = 2 := rfl
      simp only [System.polls, Bool.false_eq_true, if_false]
      omega
  | @ack w call entryIds hw =>
    refine pays_of_set hw rfl rfl (fun t _ => le_of_eq (retriesLeft_congr rfl (attempts_kept hw rfl rfl))) ?_
    have hundelivered : (runAck entryIds call s.stream).2.undelivered = s.stream.undelivered := by
      unfold runAck
      dsimp only
      split <;> rfl
    simp only [hundelivered, WorkerState.stepsLeft, System.polls, Bool.false_eq_true, if_false]
    omega
  | crash => cases hf
  | @retryRange now limit hs =>
    refine pays_of_sweeper rfl rfl ?_
    by_cases hnil : (s.stores.retryPending.due now limit).isEmpty
    · simp only [System.polls, hnil, if_true, System.sweepsLeft, hs]
      omega
    · obtain ⟨-, hlength⟩ := length_keys_remove (q := s.stores.retryPending) (RetryQueue.nodup_due _ now limit)
        fun t ht => RetryQueue.mem_keys_of_mem_due ht
      have hpos : 0 < (s.stores.retryPending.due now limit).length :=
        List.length_pos_iff.2 fun he => hnil (List.isEmpty_iff.2 he)
      simp only [System.polls, hnil, Bool.false_eq_true, if_false, System.sweepsLeft, hs, RetrySweeper.taking,
        RetrySweeper.inHand, List.not_mem_nil, not_false_eq_true, decide_true, List.filter_true, List.length_nil]
      omega
  | @retryRemove call due hs =>
    obtain rfl : call = .ok := by simpa [Action.faultless] using hf
    refine pays_of_sweeper rfl rfl ?_
    obtain ⟨hnd, hmem⟩ := h.ranged due hs
    obtain ⟨hkeys, hlength⟩ := length_keys_remove hnd hmem
    have hpos := List.length_pos_iff.2 (h.attended.ranged due hs)
    simp only [Call.tookEffect, Call.returned, if_true, System.polls, Bool.false_eq_true, if_false, System.sweepsLeft, hs,
      hkeys, RetrySweeper.taking, RetrySweeper.inHand, List.not_mem_nil, not_false_eq_true, decide_true,
      List.filter_true, List.length_nil]
    omega
  | @retryEnqueue call u rest hs =>
    obtain rfl : call = .ok := by simpa [Action.faultless] using hf
    refine pays_of_sweeper rfl rfl ?_
    simp only [Call.tookEffect, Call.returned, if_true, System.polls, Bool.false_eq_true, if_false, System.sweepsLeft, hs,
      RetrySweeper.taking, RetrySweeper.inHand, Stream.undelivered_enqueue, List.length_append, List.length_cons,
      List.length_nil]
    omega
  | retryReschedule hs => exact absurd hs (h.attended.noFailure _ _)
  | reclaim => cases hf
  | reclaimEnqueue => cases hf
  | reclaimAck => cases hf

theorem keys_of_move (hm : Move lib rateLimiter s a s') : s'.stores.db.testTasks.keys = s.stores.db.testTasks.keys := by
  cases advance_of_move hm with
  | quiet hdb => rw [hdb]
  | started _ _ _ _ _ hdb => rw [hdb]
  | settled _ _ _ _ _ hdb => rw [hdb]
  | lost _ hdb => rw [hdb]
  | committed _ _ _ hok =>
    rw [(written_of_writeBatch hok).testTasks]
    exact keys_foldl_applyOutcome

theorem length_workers_of_move (hm : Move lib rateLimiter s a s') : s'.workers.length = s.workers.length := by
  cases hm with
  | consume | slot | gather | write | ack | crash => exact List.length_set
  | _ => rfl

theorem Working.step (h : Working ts s) (hf : a.faultless) (ha : startsAlone s a)
    (hc : crashes lib rateLimiter s a = false) (hm : Move lib rateLimiter s a s') : Working ts s' where
  books := h.books.step hm
  ledger := (ledger_step_iff h.books h.ledger hm).2 (commitsOpen_of_budget _ h.books h.budget)
  ranged := h.ranged.step hm
  custody := h.custody.step h.books hf (commitsOpen_of_budget _ h.books h.budget) hm
  attended := h.attended.step h.books hf hc hm
  served := by
    rw [length_workers_of_move hm]
    exact h.served
  tasks := (keys_of_move hm).trans h.tasks
  budget := by
    intro t row hrow
    have hkey : t ∈ s.stores.db.testTasks.keys := keys_of_move hm ▸ Table.get?_isSome_iff.1 (hrow ▸ rfl)
    obtain ⟨row₀, hrow₀⟩ := Option.isSome_iff_exists.1 (Table.get?_isSome_iff.2 hkey)
    exact (h.budget t row₀ hrow₀).step h.books h.ranged hf ha hm

theorem Fresh.working (h : Fresh s) (hserved : 0 < s.workers.length) : Working s.stores.db.testTasks.keys s where
  books := h.books
  ledger := h.ledger
  ranged := fun due hs => by cases h.retrySweeper.symm.trans hs
  custody := h.custody
  attended := h.attended
  served := hserved
  tasks := rfl
  budget := fun _ _ hrow => h.budget hrow

/-- What the tasks of a fresh system may cost together. -/
theorem Fresh.stepsLeft (h : Fresh s) :
    s.stepsLeft s.stores.db.testTasks.keys = (s.stores.db.testTasks.rows.map TestTask.allowance).sum := by
  have hundelivered : s.stream.undelivered.length = s.stores.db.testTasks.rows.length := by
    rw [Stream.undelivered, h.undelivered, List.drop_zero, List.length_map, List.length_zipIdx, h.enqueued.length_eq,
      Table.keys, List.length_map]
  have hworkers : (s.workers.map WorkerState.stepsLeft).sum = 0 := by
    rw [List.sum_eq_zero_iff]
    intro n hn
    obtain ⟨x, hx, rfl⟩ := List.mem_map.1 hn
    rw [h.idle x hx]
    rfl
  have hsweeps : s.sweepsLeft = 0 := by
    rw [System.sweepsLeft, h.noRetry, h.retrySweeper]
    rfl
  have hretries : s.stores.db.testTasks.keys.map s.retriesLeft =
      s.stores.db.testTasks.rows.map TestTask.maxRetries := by
    rw [Table.keys, List.map_map]
    refine List.map_congr_left fun row hrow => ?_
    have hget : s.stores.db.testTasks.get? row.id = some row := Table.get?_eq_some_iff.2 ⟨hrow, rfl⟩
    obtain ⟨-, hrc, -⟩ := h.waiting row hrow
    have hnone : s.attemptsOf row.id = 0 := by
      rw [System.attemptsOf, attempts_eq_zero h.idle]
      rfl
    have hleft : s.retriesLeft row.id = row.maxRetries := by
      rw [System.retriesLeft, hget, hnone]
      simp [TestTask.retriesLeft, hrc]
    exact hleft
  rw [System.stepsLeft, hundelivered, hworkers, hsweeps, hretries]
  induction s.stores.db.testTasks.rows with
  | nil => rfl
  | cons row rows ih =>
    simp only [List.map_cons, List.sum_cons, List.length_cons, TestTask.allowance]
    omega

/-! Nothing stops while there is work. -/

theorem exists_slotStep (lib : Libraries) (rateLimiter : Bool) (w : WorkerId) (st : Stores) {slot : Slot}
    (h : slot.result? = none) :
    ∃ sa e, (∀ i, (Action.slot w i sa).faultless) ∧ slotStep lib rateLimiter w st slot sa = some e := by
  unfold Slot.result? at h
  cases hph : slot.phase with
  | delivered =>
    refine ⟨.load, ?_⟩
    simp only [slotStep, hph]
    cases loadTask st.db slot.entry.taskId <;> exact ⟨_, fun _ => rfl, rfl⟩
  | loaded v =>
    refine ⟨.readContext 0, ?_⟩
    simp only [slotStep, hph]
    exact ⟨_, fun _ => rfl, rfl⟩
  | resolved v chain =>
    refine ⟨.send true 0 .ok, ?_⟩
    simp only [slotStep, hph]
    split <;> exact ⟨_, fun _ => rfl, rfl⟩
  | executing v chain =>
    refine ⟨.settle (.timeout 0) 0 .ok .ok, ?_⟩
    simp only [slotStep, hph]
    exact ⟨_, fun _ => rfl, rfl⟩
  | returned r =>
    rw [hph] at h
    cases h

/-- A worker that has not come to the end of its iteration can go on. -/
theorem Exhausted.idle {w : WorkerId} {x : WorkerState} (h : Exhausted lib rateLimiter s)
    (hw : s.workers[w]? = some x) : x = .idle := by
  cases x with
  | idle => rfl
  | writing b =>
    have := h (.write w 0 .ok) _ rfl (by simp only [ApiTesting.step, hw]; rfl)
    cases this
  | acking entryIds =>
    have := h (.ack w .ok) _ rfl (by simp only [ApiTesting.step, hw]; rfl)
    cases this
  | gathering slots =>
    by_cases hall : slots.all fun slot => slot.result?.isSome
    · have := h (.gather w) _ rfl (by simp only [ApiTesting.step, hw, gathered, hall]; rfl)
      cases this
    · obtain ⟨slot, hslot, hnone⟩ : ∃ slot ∈ slots, slot.result? = none := by simpa using hall
      obtain ⟨i, hi⟩ := List.getElem?_of_mem hslot
      obtain ⟨sa, e, hf, he⟩ := exists_slotStep lib rateLimiter w s.stores hnone
      have := h (.slot w i sa) _ (hf i) (by simp only [ApiTesting.step, stepSlot, hw, hi, he]; rfl)
      cases this

theorem Exhausted.undelivered (h : Exhausted lib rateLimiter s) (hserved : 0 < s.workers.length) :
    s.stream.undelivered = [] := by
  have hw : s.workers[0]? = some .idle := by
    have hget := List.getElem?_eq_getElem hserved
    rw [hget, h.idle hget]
  have hpoll := h (.consume 0 1 0) _ rfl (by simp only [ApiTesting.step, hw]; rfl)
  have hnil : s.stream.undelivered.take 1 = [] := List.isEmpty_iff.1 hpoll
  simpa using hnil

/-- Whatever is on the retry set is due one day. -/
theorem Exhausted.retry (h : Exhausted lib rateLimiter s) (hatt : Attended s) :
    s.stores.retryPending.keys = [] ∧ s.retrySweeper.inHand = [] := by
  cases hs : s.retrySweeper with
  | ranged due =>
    have := h (.retryRemove .ok) _ rfl (by simp only [ApiTesting.step, hs]; rfl)
    cases this
  | failed t rest => exact absurd hs (hatt.noFailure t rest)
  | popped taskIds =>
    cases taskIds with
    | cons t rest =>
      have := h (.retryEnqueue .ok) _ rfl (by simp only [ApiTesting.step, hs]; rfl)
      cases this
    | nil =>
      refine ⟨List.eq_nil_iff_forall_not_mem.2 fun t ht => ?_, rfl⟩
      obtain ⟨p, hp, -⟩ := List.mem_map.1 ht
      have hpoll := h (.retryRange p.2 1) _ rfl (by simp only [ApiTesting.step, hs]; rfl)
      have hdue : s.stores.retryPending.due p.2 1 = [] := List.isEmpty_iff.1 hpoll
      rw [RetryQueue.due, List.map_eq_nil_iff, List.take_eq_nil_iff] at hdue
      obtain hdue | hdue := hdue
      · cases hdue
      · have hmem : p ∈ s.stores.retryPending.rows.filter fun q => q.2 ≤ p.2 :=
          List.mem_filter.2 ⟨hp, decide_eq_true le_rfl⟩
        rw [← List.mem_insertionSort fun a b : UUID × Timestamp => a.2 < b.2 ∨ a.2 = b.2 ∧ a.1 ≤ b.1, hdue] at hmem
        cases hmem

/-- Where every process is between two iterations and nothing is on the stream and on the
retry set, nothing can be done but to poll. -/
theorem exhausted_of_idle (hidle : ∀ x ∈ s.workers, x = .idle) (hundelivered : s.stream.undelivered = [])
    (hretry : s.stores.retryPending.keys = []) (hsweeper : s.retrySweeper = .popped []) :
    Exhausted lib rateLimiter s := by
  intro a s' hf hstep
  have hno : ∀ {w : WorkerId} {x : WorkerState}, s.workers[w]? = some x → x = .idle := fun hw =>
    hidle _ (List.mem_of_getElem? hw)
  cases move_of_step hstep with
  | consume => simp [System.polls, Stream.batch, hundelivered]
  | slot hw => cases hno hw
  | gather hw => cases hno hw
  | write hw => cases hno hw
  | ack hw => cases hno hw
  | crash => cases hf
  | @retryRange now limit =>
    refine List.isEmpty_iff.2 (List.eq_nil_iff_forall_not_mem.2 fun t ht => ?_)
    have hmem := RetryQueue.mem_keys_of_mem_due ht
    rw [hretry] at hmem
    cases hmem
  | retryRemove hs => cases hsweeper.symm.trans hs
  | retryEnqueue hs => cases hsweeper.symm.trans hs
  | retryReschedule hs => cases hsweeper.symm.trans hs
  | reclaim => cases hf
  | reclaimEnqueue => cases hf
  | reclaimAck => cases hf

/-- Where the work has come to an end, no task is open. -/
theorem Exhausted.terminal (h : Exhausted lib rateLimiter s) (hwork : Working ts s) {row : TestTask}
    (hrow : row ∈ s.stores.db.testTasks.rows) : row.status.terminal := by
  by_contra hopen
  obtain ⟨hretry, hhand⟩ := h.retry hwork.attended
  have hget : s.stores.db.testTasks.get? row.id = some row := Table.get?_eq_some_iff.2 ⟨hrow, rfl⟩
  rcases hwork.custody.secure row.id row hget (Bool.eq_false_iff.2 hopen) with ⟨e, he, -⟩ | hkey | hin | ⟨p, hp, -⟩
  · rw [h.undelivered hwork.served] at he
    cases he
  · rw [hretry] at hkey
    cases hkey
  · rw [hhand] at hin
    cases hin
  · obtain ⟨w, x, hw, hid⟩ := hwork.attended.pending p hp
    rw [h.idle hw] at hid
    cases hid

theorem Exhausted.completed (h : Exhausted lib rateLimiter s) (hwork : Working ts s) {r : TestRun}
    (hr : r ∈ s.stores.db.testRuns.rows) : r.status = .completed ∧
      r.completedTasks = s.stores.db.tasksOf r.id (· = .completed) ∧
      r.failedTasks = s.stores.db.tasksOf r.id (· = .failed) ∧ r.completedTasks + r.failedTasks = r.totalTasks := by
  have hall : s.stores.db.tasksOf r.id TestTaskStatus.terminal = r.totalTasks := by
    rw [← hwork.books.total r hr]
    refine List.countP_congr fun row hrow => ?_
    simp [h.terminal hwork hrow]
  obtain ⟨hcompleted, hfailed, hstatus⟩ := hwork.ledger r hr
  refine ⟨hstatus.2 hall, hcompleted, hfailed, ?_⟩
  rw [hcompleted, hfailed, ← tasksOf_terminal]
  exact hall

/-- Along a run in which no call fails, no process dies and no attempt raises what nobody
expects, and none starts while another one of its task is in flight, the steps that do
something are bounded: by eight for each task and eleven for each retry it is allowed, and by
nine for each time the rate limiter puts an attempt off. Where nothing is left to do but to
poll, every run is COMPLETED, with all its tasks counted as what they are. -/
theorem every_run_completes {as : List Action} (h₀ : Fresh s₀) (hserved : 0 < s₀.workers.length)
    (hr : Run (step lib rateLimiter) s₀ as s)
    (hf : Each (step lib rateLimiter) (fun _ a => a.faultless) s₀ as)
    (ha : Each (step lib rateLimiter) (fun s a => startsAlone s a) s₀ as)
    (hc : Each (step lib rateLimiter) (fun s a => crashes lib rateLimiter s a = false) s₀ as) :
    total (step lib rateLimiter) (fun s a => if s.polls a then 0 else 1) s₀ as ≤
        (s₀.stores.db.testTasks.rows.map TestTask.allowance).sum +
          total (step lib rateLimiter) (fun s a => if defers lib rateLimiter s a then 9 else 0) s₀ as ∧
      (Exhausted lib rateLimiter s → ∀ r ∈ s.stores.db.testRuns.rows, r.status = .completed ∧
        r.completedTasks = s.stores.db.tasksOf r.id (· = .completed) ∧
        r.failedTasks = s.stores.db.tasksOf r.id (· = .failed) ∧ r.completedTasks + r.failedTasks = r.totalTasks) := by
  have hp := (hf.and ha).and hc
  have hstep : ∀ u a u', Working s₀.stores.db.testTasks.keys u →
      ((a.faultless ∧ startsAlone u a) ∧ crashes lib rateLimiter u a = false) →
      step lib rateLimiter u a = some u' → Working s₀.stores.db.testTasks.keys u' :=
    fun u a u' hu ⟨⟨hf, ha⟩, hc⟩ hstep => hu.step hf ha hc (move_of_step hstep)
  refine ⟨?_, fun hdone r hrow => hdone.completed (hr.invariant hp (h₀.working hserved) hstep) hrow⟩
  have hpaid := hr.amortized hp (h₀.working hserved) hstep
    fun u a u' hu ⟨⟨hf, _⟩, hc⟩ hstep => hu.pays hf hc (move_of_step hstep)
  rw [h₀.stepsLeft] at hpaid
  exact (Nat.le_add_left _ _).trans hpaid

end

theorem completes_retriedOnce :
    total plainStep (fun s a => if s.polls a then 0 else 1) oneTask retriedOnce ≤ 41 ∧
      ∀ r ∈ (final plainStep oneTask retriedOnce).stores.db.testRuns.rows, r.status = .completed ∧
        r.completedTasks = (final plainStep oneTask retriedOnce).stores.db.tasksOf r.id (· = .completed) ∧
        r.failedTasks = (final plainStep oneTask retriedOnce).stores.db.tasksOf r.id (· = .failed) ∧
        r.completedTasks + r.failedTasks = r.totalTasks := by
  have hr : Run plainStep oneTask retriedOnce (final plainStep oneTask retriedOnce) := run_final _ rfl
  have hdone : Exhausted plainLibraries false (final plainStep oneTask retriedOnce) := by
    refine exhausted_of_idle ?_ rfl rfl rfl
    intro x hx
    obtain rfl := List.mem_singleton.1 (show x ∈ [WorkerState.idle] from hx)
    rfl
  obtain ⟨hbound, hcompleted⟩ := every_run_completes fresh_oneTask (by decide) hr
    (each_of_eachB (p := fun _ a => a.faultless) (fun _ _ h => h) (by rfl))
    (each_of_eachB (p := startsAlone) (fun _ _ h => h) (by rfl))
    (each_of_eachB (p := fun s a => !crashes plainLibraries false s a) (fun _ _ h => by simpa using h) (by rfl))
  exact ⟨hbound, hcompleted hdone⟩

end ApiTesting
