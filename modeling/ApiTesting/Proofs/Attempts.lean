import ApiTesting.Proofs.Moves
import ApiTesting.Proofs.Outcomes
import ApiTesting.Lib.Pool

/-! The attempts in flight: which rows some worker has read and not yet settled,
and which outcomes are settled and not yet written. The platform moves over them
and the database in five ways only. -/

namespace ApiTesting

open Keyed Pool

inductive Attempt
  | running (v : TaskView)
  | ended (o : TaskOutcome)

def Attempt.taskId : Attempt → UUID
  | .running v => v.testTask.id
  | .ended o => o.testTaskId

def Phase.attempts : Phase → List Attempt
  | .delivered => []
  | .loaded v => [.running v]
  | .resolved v _ => [.running v]
  | .executing v _ => [.running v]
  | .returned (.ok o) => [.ended o]
  | .returned (.error _) => []

def Slot.attempts (slot : Slot) : List Attempt := slot.phase.attempts

def WorkerState.attempts : WorkerState → List Attempt
  | .gathering slots => slots.flatMap Slot.attempts
  | .writing b => b.outcomes.map .ended
  | _ => []

def System.attempts (s : System) : Multiset Attempt := held WorkerState.attempts s.workers

theorem attempts_afterConsume (batch : List StreamEntry) : (afterConsume batch).attempts = [] := by
  unfold afterConsume
  split
  · rfl
  · simp [WorkerState.attempts, Slot.attempts, Phase.attempts, List.flatMap_map]

theorem attempts_beforeAck (entryIds : List ℕ) : (beforeAck entryIds).attempts = [] := by
  unfold beforeAck
  split <;> rfl

theorem attempts_afterWrite (result : Except Exn Unit) (entryIds : List ℕ) :
    (afterWrite result entryIds).attempts = [] := by
  cases result with
  | error e => rfl
  | ok u => exact attempts_beforeAck entryIds

theorem attempts_afterGather (b : Batch) : (afterGather b).attempts = b.outcomes.map .ended := by
  unfold afterGather
  split
  · rename_i h
    rw [List.isEmpty_iff.1 h]
    exact attempts_beforeAck _
  · rfl

/-- `gather` hands every outcome over, in the order of the batch. -/
theorem attempts_gathered {slots : List Slot} (h : ∀ slot ∈ slots, slot.result?.isSome) :
    (afterGather (collect (slots.filterMap Slot.result?))).attempts =
      slots.flatMap Slot.attempts := by
  rw [attempts_afterGather, collect_eq]
  simp only
  induction slots with
  | nil => rfl
  | cons slot slots ih =>
    have ih := ih fun q hq => h q (List.mem_cons_of_mem _ hq)
    have hslot := h slot (by simp)
    rcases hph : slot.phase with _ | _ | _ | _ | r
    case returned =>
      have hres : slot.result? = some (processEntry slot.entry r) := by simp [Slot.result?, hph]
      rw [List.filterMap_cons_some hres, List.flatMap_cons, ← ih]
      rcases r with e | o
      · have hnone : (processEntry slot.entry (.error e)).toOption.bind Prod.snd = none := by
          simp only [processEntry]
          split <;> rfl
        rw [List.filterMap_cons, hnone]
        simp [Slot.attempts, hph, Phase.attempts]
      · have hsome : (processEntry slot.entry (.ok o)).toOption.bind Prod.snd = some o := rfl
        rw [List.filterMap_cons, hsome]
        simp [Slot.attempts, hph, Phase.attempts]
    all_goals simp [Slot.result?, hph] at hslot

theorem slotAt?_eq {s : System} {w : WorkerId} {i : ℕ} {slots : List Slot} {slot : Slot}
    (hw : s.workers[w]? = some (.gathering slots)) (hi : slots[i]? = some slot) :
    s.slotAt? w i = some slot := by
  simp only [System.slotAt?, hw, hi]

theorem mem_attempts_of_slot {s : System} {w : WorkerId} {i : ℕ} {slots : List Slot} {slot : Slot}
    {b : Attempt} (hw : s.workers[w]? = some (.gathering slots)) (hi : slots[i]? = some slot)
    (hb : b ∈ slot.attempts) : b ∈ s.attempts :=
  mem_held.2 ⟨_, List.mem_of_getElem? hw, List.mem_flatMap.2 ⟨slot, List.mem_of_getElem? hi, hb⟩⟩

theorem attempts_eq_zero {s : System} (h : ∀ w ∈ s.workers, w = .idle) : s.attempts = 0 := by
  rw [Multiset.eq_zero_iff_forall_notMem]
  intro b hb
  obtain ⟨x, hx, hbx⟩ := mem_held.1 hb
  rw [h x hx] at hbx
  cases hbx

/-- Some attempt of `t` is in flight. -/
def System.inFlight (s : System) (t : UUID) : Bool :=
  s.workers.any fun x => x.attempts.any fun b => b.taskId = t

theorem inFlight_eq_false_iff {s : System} {t : UUID} :
    s.inFlight t = false ↔ ∀ b ∈ s.attempts, b.taskId ≠ t := by
  simp only [System.inFlight, List.any_eq_false, List.any_eq_true, decide_eq_true_eq, System.attempts,
    mem_held]
  constructor
  · rintro h b ⟨x, hx, hb⟩ hid
    exact h x hx ⟨b, hb, hid⟩
  · rintro h x hx ⟨b, hb, hid⟩
    exact h b ⟨x, hx, hb⟩ hid

/-- The step starts no attempt of a task of which another one is in flight. -/
def startsAlone (s : System) (a : Action) : Bool :=
  match a with
  | .slot w i .load =>
    match s.slotAt? w i with
    | some slot => !s.inFlight slot.entry.taskId
    | none => true
  | _ => true

/-- A worker that goes on with the same attempts. -/
theorem attempts_kept {s s' : System} {w : WorkerId} {old new : WorkerState}
    (hw : s.workers[w]? = some old) (hs' : s'.workers = s.workers.set w new)
    (h : new.attempts = old.attempts) : s'.attempts = s.attempts := by
  have := held_set_of_add (f := WorkerState.attempts) (n := 0) hw (y := new) (by rw [h, zero_add])
  rwa [← hs', zero_add] at this

/-- A worker that is left with none. -/
theorem attempts_dropped {s s' : System} {w : WorkerId} {old new : WorkerState}
    (hw : s.workers[w]? = some old) (hs' : s'.workers = s.workers.set w new)
    (h : new.attempts = []) : s.attempts = ↑old.attempts + s'.attempts := by
  have := held_of_set_add (f := WorkerState.attempts) (n := ↑old.attempts) hw (y := new)
    (by rw [h]; exact (add_zero _).symm)
  rwa [← hs'] at this

/-- What a worker holds entry by entry, and only while it gathers. -/
def WorkerState.bySlot {α : Type} (g : Slot → List α) : WorkerState → List α
  | .gathering slots => slots.flatMap g
  | _ => []

section
variable {α : Type} (g : Slot → List α)

theorem bySlot_afterConsume (batch : List StreamEntry) :
    (afterConsume batch).bySlot g = batch.flatMap fun e => g ⟨e, .delivered⟩ := by
  unfold afterConsume
  split
  · rename_i h
    rw [List.isEmpty_iff.1 h]
    rfl
  · rw [WorkerState.bySlot, List.flatMap_map]

theorem bySlot_beforeAck (entryIds : List ℕ) : (beforeAck entryIds).bySlot g = [] := by
  unfold beforeAck
  split <;> rfl

theorem bySlot_afterWrite (result : Except Exn Unit) (entryIds : List ℕ) :
    (afterWrite result entryIds).bySlot g = [] := by
  cases result with
  | error e => rfl
  | ok u => exact bySlot_beforeAck g entryIds

theorem bySlot_afterGather (b : Batch) : (afterGather b).bySlot g = [] := by
  unfold afterGather
  split
  · exact bySlot_beforeAck g _
  · rfl

end

/-- What one entry of a batch took on and gave up, for anything a worker holds
entry by entry while it gathers. -/
theorem held_set_slot {α : Type} {f : WorkerState → List α} {g : Slot → List α}
    (hf : ∀ slots, f (.gathering slots) = slots.flatMap g) {s s' : System} {w : WorkerId}
    {slots : List Slot} {i : ℕ} {slot slot' : Slot} (hw : s.workers[w]? = some (.gathering slots))
    (hi : slots[i]? = some slot)
    (hs' : s'.workers = s.workers.set w (.gathering (slots.set i slot'))) :
    held f s'.workers + ↑(g slot) = held f s.workers + ↑(g slot') := by
  have hslots := held_set (f := g) hi slot'
  have hpool := held_set (f := f) hw (.gathering (slots.set i slot'))
  have hbatch : ∀ l : List Slot, (f (.gathering l) : Multiset α) = held g l := by
    intro l
    rw [hf]
    rfl
  rw [hbatch, hbatch, ← hs'] at hpool
  apply add_right_cancel (b := held g slots)
  calc held f s'.workers + ↑(g slot) + held g slots
      = held f s.workers + (held g (slots.set i slot') + ↑(g slot)) := by
        rw [add_right_comm, hpool, add_assoc]
    _ = held f s.workers + ↑(g slot') + held g slots := by
        rw [hslots, add_right_comm, add_assoc]

theorem coe_le_held_of_slot {α : Type} {g : Slot → List α} {s : System} {w : WorkerId}
    {slots : List Slot} {i : ℕ} {slot : Slot} (hw : s.workers[w]? = some (.gathering slots))
    (hi : slots[i]? = some slot) : (g slot : Multiset α) ≤ held (WorkerState.bySlot g) s.workers :=
  (coe_le_held (f := g) hi).trans (coe_le_held (f := WorkerState.bySlot g) hw)

section
variable (lib : Libraries) (rateLimiter : Bool)

/-- The five ways. -/
inductive Advance (s : System) (a : Action) (s' : System) : Prop
  | quiet : s'.stores.db = s.stores.db → s'.attempts = s.attempts → Advance s a s'
  | started {w : WorkerId} {i : ℕ} {slots : List Slot} {slot : Slot} {v : TaskView} :
      a = .slot w i .load → s.workers[w]? = some (.gathering slots) → slots[i]? = some slot →
      slot.phase = .delivered → loadTask s.stores.db slot.entry.taskId = .ok v →
      s'.stores.db = s.stores.db → s'.attempts = .running v ::ₘ s.attempts → Advance s a s'
  | settled {w : WorkerId} {i : ℕ} {slots : List Slot} {slot : Slot} {v : TaskView}
      {chain : Dict String String} {reply : HttpReply} {now : Timestamp} {call expireCall : Call}
      {write : RedisWrite} {o : TaskOutcome} {rest : Multiset Attempt} :
      a = .slot w i (.settle reply now call expireCall) →
      s.workers[w]? = some (.gathering slots) → slots[i]? = some slot →
      slot.phase = .executing v chain →
      judgeReply lib w v chain reply now s.stores.db = .ok (write, o) →
      s'.stores.db = s.stores.db → s.attempts = .running v ::ₘ rest →
      s'.attempts = .ended o ::ₘ rest → Advance s a s'
  | lost (gone : Multiset Attempt) : s'.stores.db = s.stores.db →
      s.attempts = gone + s'.attempts → Advance s a s'
  | committed {w : WorkerId} {now : Timestamp} {call : Call} {b : Batch} :
      a = .write w now call → s.workers[w]? = some (.writing b) → call.tookEffect →
      writeBatch b.outcomes now s.stores.db = .ok s'.stores.db →
      s.attempts = ↑(b.outcomes.map Attempt.ended) + s'.attempts → Advance s a s'

variable {lib rateLimiter}

theorem runWrite_cases (outcomes : List TaskOutcome) (now : Timestamp) (call : Call) (db : Database) :
    (runWrite outcomes now call db).2 = db ∨
      call.tookEffect ∧ writeBatch outcomes now db = .ok (runWrite outcomes now call db).2 := by
  unfold runWrite
  cases call <;> rcases writeBatch outcomes now db with e | db'
  · exact .inl rfl
  · exact .inr ⟨rfl, rfl⟩
  · exact .inl rfl
  · exact .inl rfl
  · exact .inl rfl
  · exact .inr ⟨rfl, rfl⟩

theorem advance_slot {s s' : System} {w : WorkerId} {i : ℕ} {a : SlotAction} {slots : List Slot}
    {slot : Slot} {e : SlotEffect} (hw : s.workers[w]? = some (.gathering slots))
    (hi : slots[i]? = some slot) (h : SlotMove lib rateLimiter w s.stores slot a e)
    (hst : s'.stores = e.stores)
    (hs' : s'.workers = s.workers.set w (.gathering (slots.set i { slot with phase := e.phase }))) :
    Advance lib s (.slot w i a) s' := by
  have hset : s'.attempts + slot.phase.attempts = s.attempts + e.phase.attempts :=
    held_set_slot (f := WorkerState.attempts) (g := Slot.attempts) (fun _ => rfl) hw hi hs'
  -- an attempt that ends without an outcome
  have hlost : e.phase.attempts = [] → s.attempts = slot.phase.attempts + s'.attempts := by
    intro he
    rw [he] at hset
    rw [add_comm, hset]
    simp
  cases h with
  | load hph hload =>
    refine .started rfl hw hi hph hload (by rw [hst]) ?_
    rw [← Multiset.singleton_add, add_comm]
    simpa [hph, Phase.attempts] using hset
  | missing hph hload =>
    refine .quiet (by rw [hst]) ?_
    simpa [hph, Phase.attempts] using hset
  | readContext hph =>
    refine .quiet (by rw [hst]) ?_
    simpa [hph, Phase.attempts] using hset
  | @refused v chain allowed now call err st' hph hpass =>
    refine .lost _ ?_ (hlost rfl)
    have hdb := limited_db (passRateLimit_limited lib rateLimiter v chain allowed now call s.stores)
    rw [hpass] at hdb
    rw [hst]
    exact hdb
  | @sent v chain allowed now call st' hph hpass =>
    refine .quiet ?_ ?_
    · have hdb := limited_db (passRateLimit_limited lib rateLimiter v chain allowed now call s.stores)
      rw [hpass] at hdb
      rw [hst]
      exact hdb
    · simpa [hph, Phase.attempts] using hset
  | @judged v chain reply now call expireCall write o hph hj =>
    have hdb : s'.stores.db = s.stores.db := by
      rw [hst]
      simp
    rcases hp : (s.stores.perform v write now call expireCall).1 with err | _
    · refine .lost _ hdb (hlost ?_)
      simp only [hp]
      rfl
    · have hex : s'.attempts + {.running v} = s.attempts + {.ended o} := by
        rw [hph, hp] at hset
        exact hset
      obtain ⟨rest, hs, hs''⟩ := exists_rest hex (by simp)
      exact .settled rfl hw hi hph hj hdb hs hs''
  | unjudged hph hj => exact .lost _ (by rw [hst]) (hlost rfl)
  | callRaised hph => exact .lost _ (by rw [hst]) (hlost rfl)

/-- Every step of the platform advances the attempts in one of the five ways. -/
theorem advance_of_move {s s' : System} {a : Action} (h : Move lib rateLimiter s a s') :
    Advance lib s a s' := by
  cases h with
  | consume hw => exact .quiet rfl (attempts_kept hw rfl (attempts_afterConsume _))
  | slot hw hi hmove => exact advance_slot hw hi hmove rfl rfl
  | gather hw hall => exact .quiet rfl (attempts_kept hw rfl (attempts_gathered hall))
  | @write w now call b hw =>
    have hnone := attempts_afterWrite (runWrite b.outcomes now call s.stores.db).1 b.entryIdsToAck
    rcases runWrite_cases b.outcomes now call s.stores.db with hdb | ⟨hcall, hok⟩
    · exact .lost _ hdb (attempts_dropped hw rfl hnone)
    · exact .committed rfl hw hcall hok (attempts_dropped hw rfl hnone)
  | ack hw => exact .quiet rfl (attempts_kept hw rfl rfl)
  | crash hw => exact .lost _ rfl (attempts_dropped hw rfl rfl)
  | retryRemove =>
    refine .quiet ?_ rfl
    dsimp only
    split <;> rfl
  | retryReschedule => exact .quiet (by simp) rfl
  | _ => exact .quiet rfl rfl

/-- The database changes in a write only. -/
theorem db_of_move {s s' : System} {a : Action} (h : Move lib rateLimiter s a s') :
    (∃ w now call b, a = .write w now call ∧ s.workers[w]? = some (.writing b) ∧
      s'.stores.db = (runWrite b.outcomes now call s.stores.db).2) ∨
    (∀ w now call, a ≠ .write w now call) ∧ s'.stores.db = s.stores.db := by
  have hadv := advance_of_move h
  by_cases ha : ∃ w now call, a = .write w now call
  · obtain ⟨w, now, call, rfl⟩ := ha
    cases h with
    | write hw => exact .inl ⟨w, now, call, _, rfl, hw, rfl⟩
  · refine .inr ⟨fun w now call he => ha ⟨w, now, call, he⟩, ?_⟩
    cases hadv with
    | quiet hdb => exact hdb
    | started _ _ _ _ _ hdb => exact hdb
    | settled _ _ _ _ _ hdb => exact hdb
    | lost _ hdb => exact hdb
    | committed he => exact absurd ⟨_, _, _, he⟩ ha

end

end ApiTesting
