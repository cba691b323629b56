import ApiTesting.Proofs.Budget
import ApiTesting.Proofs.Rationing
import ApiTesting.Spec.ClockedSystem

/-! The backoff between two requests of one task. The score a failed attempt puts on the
retry set is all there is to it: the entry the sweeper makes of it is consumed, loaded and
sent whenever a worker gets to it, but never before. A task has one place at a time from
which it can be attempted, so no other attempt gets in between. -/

namespace ApiTesting

open Keyed Machine Pool

/-- When the next request of the task may leave. -/
def Release.due (p : Release) : Timestamp := p.at_ + computeBackoffSeconds p.retryCount * 1000000

/-- No call fails, no process dies and nothing is reclaimed. -/
def RationedAction.faultless : RationedAction → Bool
  | .tick _ => true
  | .act a => a.faultless
  | .acquireRaised _ _ => false

/-- The processes go by the same clock. -/
def Rationed.onTime (s : Rationed) : RationedAction → Bool
  | .act a => a.now?.all (· = s.clock)
  | _ => true

def Rationed.releasesOf (s : Rationed) (t : UUID) : List Release :=
  s.releases.filter fun p => p.sent.testTaskId = t

/-- The rows of an attempt whose request is on its way. -/
def Slot.views (slot : Slot) : List TaskView :=
  match slot.phase with
  | .executing v _ => [v]
  | _ => []

theorem Slot.executing_eq (slot : Slot) : slot.executing = slot.views.map fun v => v.testTask.id := by
  cases hph : slot.phase <;> simp [Slot.executing, Slot.views, hph]

section
variable {lib : Libraries} {rateLimiter : Bool} {s s' : System} {a : Action} {t : UUID} {clock d : Timestamp}

/-- The places a task may be attempted from, and the requests of it on their way. -/
def System.places (s : System) (t : UUID) : ℕ := s.unsent t + s.executing t

/-- A step of an attempt gives up the place it takes. -/
theorem count_of_slotMove {w : WorkerId} {i : ℕ} {st : Stores} {slot : Slot} {sa : SlotAction} {e : SlotEffect}
    (hm : SlotMove lib rateLimiter w st slot sa e) (hf : (Action.slot w i sa).faultless) (t : UUID) :
    (Slot.unsent { slot with phase := e.phase }).count t + (Slot.executing { slot with phase := e.phase }).count t +
        e.stores.retryPending.keys.count t ≤
      slot.unsent.count t + slot.executing.count t + st.retryPending.keys.count t := by
  cases hm with
  | @load v hph hload =>
    have hid := (Table.get?_eq_some_iff.1 (loadTask_eq_ok_iff.1 hload).1).2
    simp [Slot.unsent, Slot.executing, hph, hid]
  | missing hph => simp [Slot.unsent, Slot.executing, hph]
  | readContext hph => simp [Slot.unsent, Slot.executing, hph]
  | @refused v chain allowed now call err st' hph hpass =>
    have hlim := passRateLimit_limited lib rateLimiter v chain allowed now call st
    rw [hpass] at hlim
    have hkeys : st'.retryPending.keys.count t ≤
        st.retryPending.keys.count t + if v.testTask.id = t then 1 else 0 := count_keys_of_limited hlim
    simp only [Slot.unsent, Slot.executing, hph, List.count_nil, List.count_singleton, beq_iff_eq]
    omega
  | @sent v chain allowed now call st' hph hpass =>
    have hlim := passRateLimit_limited lib rateLimiter v chain allowed now call st
    rw [hpass] at hlim
    cases hlim
    simp [Slot.unsent, Slot.executing, hph]
  | @judged v chain reply now call expireCall write o hph hj =>
    have hkeys : (st.perform v write now call expireCall).2.retryPending.keys.count t ≤
        st.retryPending.keys.count t + if v.testTask.id = t then 1 else 0 := by
      rw [Stores.perform_retryPending]
      cases write with
      | scheduleRetry at_ =>
        dsimp only
        split
        · exact count_keys_scheduleRetry_le _ t _ _
        · exact Nat.le_add_right _ _
      | _ => exact Nat.le_add_right _ _
    simp only [Slot.unsent, Slot.executing, hph, List.count_nil, List.count_singleton, beq_iff_eq]
    omega
  | unjudged hph => simp [Slot.unsent, Slot.executing, hph]
  | callRaised => simp [Action.faultless] at hf

/-- A worker that has nothing to attempt before or after its step. -/
theorem places_of_set {w : WorkerId} {old new : WorkerState} (hw : s.workers[w]? = some old)
    (hs' : s'.workers = s.workers.set w new) (hsched : s'.scheduled t ≤ s.scheduled t)
    (hstream : s'.stream.undelivered = s.stream.undelivered)
    (hold : ∀ g : Slot → List UUID, (∀ slot, slot.result?.isSome → g slot = []) → old.bySlot g = [])
    (hnew : ∀ g : Slot → List UUID, new.bySlot g = []) : s'.places t ≤ s.places t := by
  have hunsent : ∀ slot : Slot, slot.result?.isSome → slot.unsent = [] := by
    intro slot hslot
    cases hph : slot.phase <;> simp [Slot.result?, Slot.unsent, hph] at hslot ⊢
  have hexec : ∀ slot : Slot, slot.result?.isSome → slot.executing = [] := by
    intro slot hslot
    cases hph : slot.phase <;> simp [Slot.result?, Slot.executing, hph] at hslot ⊢
  have h1 := count_bySlot_set hw (hold Slot.unsent hunsent) (hnew Slot.unsent) t
  have h2 := count_bySlot_set hw (hold Slot.executing hexec) (hnew Slot.executing) t
  simp only [System.places, System.unsent, System.executing, hs', hstream, h1, h2]
  omega

/-- Without faults no step adds a place. -/
theorem places_le_of_move (hr : RangedIn s) (hf : a.faultless) (hm : Move lib rateLimiter s a s') (t : UUID) :
    s'.places t ≤ s.places t := by
  have hsched := fun hno => scheduled_le_of_move hr hm hno t
  cases hm with
  | @consume w count now hw =>
    have hu := congrArg (Multiset.count t)
      (held_set (f := WorkerState.bySlot Slot.unsent) hw (afterConsume (s.stream.batch count)))
    have hx := congrArg (Multiset.count t)
      (held_set (f := WorkerState.bySlot Slot.executing) hw (afterConsume (s.stream.batch count)))
    have hst := count_consume s.stream w count now t
    have htask : (s.stream.batch count).flatMap (fun e => Slot.unsent ⟨e, .delivered⟩) =
        (s.stream.batch count).map StreamEntry.taskId := by
      rw [List.map_eq_flatMap]
      rfl
    have hnil : (s.stream.batch count).flatMap (fun e => Slot.executing ⟨e, .delivered⟩) = [] :=
      List.flatMap_eq_nil_iff.2 fun _ _ => rfl
    rw [bySlot_afterConsume, htask] at hu
    rw [bySlot_afterConsume, hnil] at hx
    simp only [WorkerState.bySlot, Multiset.count_add, Multiset.coe_count, List.count_nil] at hu hx
    simp only [System.places, System.unsent, System.executing, System.scheduled] at hst ⊢
    omega
  | @slot w i sa slots slot e hw hi hmove =>
    have hcount := count_of_slotMove hmove hf t
    have hafter : ({ s with
        workers := s.workers.set w (.gathering (slots.set i { slot with phase := e.phase })) } : System).workers =
          s.workers.set w (.gathering (slots.set i { slot with phase := e.phase })) := rfl
    have hU := congrArg (Multiset.count t)
      (held_set_slot (f := WorkerState.bySlot Slot.unsent) (g := Slot.unsent) (fun _ => rfl) hw hi hafter)
    have hX := congrArg (Multiset.count t)
      (held_set_slot (f := WorkerState.bySlot Slot.executing) (g := Slot.executing) (fun _ => rfl) hw hi hafter)
    rw [Multiset.count_add, Multiset.count_add, Multiset.coe_count, Multiset.coe_count] at hU hX
    rw [hafter] at hU hX
    simp only [System.places, System.unsent, System.executing, System.scheduled]
    omega
  | @gather w slots hw hall =>
    refine places_of_set hw rfl (hsched (by simp)) rfl (fun g hg => ?_) fun g => bySlot_afterGather g _
    rw [WorkerState.bySlot, List.flatMap_eq_nil_iff]
    exact fun slot hslot => hg slot (hall slot hslot)
  | @write w now call b hw =>
    exact places_of_set hw rfl (hsched (by simp)) rfl (fun _ _ => rfl) fun g => bySlot_afterWrite g _ _
  | @ack w call entryIds hw =>
    refine places_of_set hw rfl (hsched (by simp)) ?_ (fun _ _ => rfl) fun _ => rfl
    unfold runAck
    dsimp only
    split <;> rfl
  | crash => cases hf
  | @retryEnqueue call u rest hs =>
    obtain rfl : call = .ok := by simpa [Action.faultless] using hf
    have hcount : (u :: rest).count t = rest.count t + if u == t then 1 else 0 := List.count_cons
    simp only [System.places, System.executing, System.unsent, System.scheduled, Call.tookEffect, Call.returned,
      if_true, Stream.undelivered_enqueue, List.map_append, List.count_append, hs, RetrySweeper.inHand, hcount,
      List.map_cons, List.map_nil, List.count_cons, List.count_nil]
    omega
  | retryRange => exact Nat.add_le_add_right (Nat.add_le_add_right (Nat.add_le_add_left (hsched (by simp)) _) _) _
  | retryRemove => exact Nat.add_le_add_right (Nat.add_le_add_right (Nat.add_le_add_left (hsched (by simp)) _) _) _
  | retryReschedule =>
    exact Nat.add_le_add_right (Nat.add_le_add_right (Nat.add_le_add_left (hsched (by simp)) _) _) _
  | reclaim => cases hf
  | reclaimEnqueue => cases hf
  | reclaimAck => cases hf

/-! The scores on the retry set. -/

/-- The rate limiter puts a task off by its own delay. -/
theorem refused_cases {v : TaskView} {chain : Dict String String} {allowed : Bool} {now : Timestamp} {call : Call}
    {st st' : Stores} {e : Exn} (h : passRateLimit lib rateLimiter v chain allowed now call st = (.error e, st')) :
    st' = st ∨ st' = { st with
      retryPending := st.retryPending.scheduleRetry v.testTask.id (now + rateLimitedRetryDelay) } := by
  unfold passRateLimit at h
  split at h
  · unfold checkRateLimit at h
    split at h
    · rename_i err herr
      rw [if_pos (resolveTemplate_raises _ _ _ err herr)] at h
      cases h
    · split at h
      · cases h
        exact .inl rfl
      · cases h
      · split at h
        · cases h
        · cases call with
          | ok =>
            cases h
            exact .inr rfl
          | raisedBefore =>
            cases h
            exact .inl rfl
          | raisedAfter =>
            cases h
            exact .inr rfl
  · cases h

/-- A failed attempt puts its task off by the backoff of the retries it has read. -/
theorem score_of_judgeReply {w : WorkerId} {v : TaskView} {chain : Dict String String} {reply : HttpReply}
    {now at_ : Timestamp} {db : Database} {o : TaskOutcome}
    (h : judgeReply lib w v chain reply now db = .ok (.scheduleRetry at_, o)) :
    at_ = now + computeBackoffSeconds v.testTask.retryCount * 1000000 := by
  obtain ⟨result, ev, extracted, -, -, -, hp⟩ := judgeReply_eq_ok h
  unfold decideOutcome at hp
  dsimp only at hp
  split at hp
  · split at hp <;> cases hp
  · split at hp
    · cases hp
      rfl
    · cases hp

/-- Where the score of a task comes from. -/
theorem score_of_slotMove {w : WorkerId} {i : ℕ} {st : Stores} {slot : Slot} {sa : SlotAction} {e : SlotEffect}
    (hm : SlotMove lib rateLimiter w st slot sa e) (hnow : (Action.slot w i sa).now?.all (· = clock))
    {at_ : Timestamp} (h : e.stores.retryPending.lookup t = some at_) :
    st.retryPending.lookup t = some at_ ∨ (t ∈ slot.unsent ∧ clock ≤ at_) ∨
      ∃ v ∈ slot.views, v.testTask.id = t ∧ at_ = clock + computeBackoffSeconds v.testTask.retryCount * 1000000 := by
  cases hm with
  | @refused v chain allowed now call err st' hph hpass =>
    obtain rfl : now = clock := by simpa [Action.now?] using hnow
    rcases refused_cases hpass with rfl | rfl
    · exact .inl h
    · simp only [RetryQueue.scheduleRetry, Dict.lookup_put] at h
      split at h
      · rename_i ht
        cases h
        exact .inr (.inl ⟨by simp [Slot.unsent, hph, ht], Nat.le_add_right _ _⟩)
      · exact .inl h
  | @sent v chain allowed now call st' hph hpass =>
    have hlim := passRateLimit_limited lib rateLimiter v chain allowed now call st
    rw [hpass] at hlim
    cases hlim
    exact .inl h
  | @judged v chain reply now call expireCall write o hph hj =>
    obtain rfl : now = clock := by simpa [Action.now?] using hnow
    rw [Stores.perform_retryPending] at h
    cases write with
    | scheduleRetry at' =>
      dsimp only at h
      split at h
      · simp only [RetryQueue.scheduleRetry, Dict.lookup_put] at h
        split at h
        · rename_i ht
          cases h
          exact .inr (.inr ⟨v, by simp [Slot.views, hph], ht.symm, score_of_judgeReply hj⟩)
        · exact .inl h
      · exact .inl h
    | _ => exact .inl h
  | _ => exact .inl h

/-- A step of an attempt goes on with its task, and to the release only from before it. -/
theorem unsent_of_slotMove {w : WorkerId} {st : Stores} {slot : Slot} {sa : SlotAction} {e : SlotEffect}
    (hm : SlotMove lib rateLimiter w st slot sa e) (h : t ∈ Slot.unsent { slot with phase := e.phase }) :
    t ∈ slot.unsent := by
  cases hm with
  | @load v hph hload =>
    have hid := (Table.get?_eq_some_iff.1 (loadTask_eq_ok_iff.1 hload).1).2
    simpa [Slot.unsent, hph, hid] using h
  | readContext hph => simpa [Slot.unsent, hph] using h
  | _ => simp [Slot.unsent] at h

theorem views_of_slotMove {w : WorkerId} {st : Stores} {slot : Slot} {sa : SlotAction} {e : SlotEffect}
    (hm : SlotMove lib rateLimiter w st slot sa e) {v : TaskView}
    (h : v ∈ Slot.views { slot with phase := e.phase }) : v.testTask.id ∈ slot.unsent := by
  cases hm with
  | sent hph =>
    simp only [Slot.views, List.mem_singleton] at h
    simp [Slot.unsent, hph, h]
  | _ => simp [Slot.views] at h

/-- What a pool holds after one of its processes has moved. -/
theorem mem_held_set {σ α : Type*} {f : σ → List α} {l : List σ} {i : ℕ} {y : σ} {b : α}
    (h : b ∈ held f (l.set i y)) : b ∈ f y ∨ b ∈ held f l := by
  obtain ⟨x, hx, hb⟩ := mem_held.1 h
  rcases List.mem_or_eq_of_mem_set hx with hx | rfl
  · exact .inr (mem_held.2 ⟨x, hx, hb⟩)
  · exact .inl hb

/-- Nothing of the task happens before `d`: where it may be attempted the clock is that far,
its score is that late, and a request on its way puts it off that long. -/
structure Awaits (t : UUID) (d clock : Timestamp) (s : System) : Prop where
  undelivered : ∀ e ∈ s.stream.undelivered, e.taskId = t → d ≤ clock
  inHand : t ∈ s.retrySweeper.inHand → d ≤ clock
  ranged : ∀ due, s.retrySweeper = .ranged due → t ∈ due → d ≤ clock
  unsent : t ∈ held (WorkerState.bySlot Slot.unsent) s.workers → d ≤ clock
  scheduled : ∀ at_, s.stores.retryPending.lookup t = some at_ → d ≤ at_
  views : ∀ v ∈ held (WorkerState.bySlot Slot.views) s.workers, v.testTask.id = t →
    d ≤ clock + computeBackoffSeconds v.testTask.retryCount * 1000000

theorem Awaits.later (h : Awaits t d clock s) {clock' : Timestamp} (hle : clock ≤ clock') :
    Awaits t d clock' s where
  undelivered := fun e he ht => (h.undelivered e he ht).trans hle
  inHand := fun ht => (h.inHand ht).trans hle
  ranged := fun due hdue ht => (h.ranged due hdue ht).trans hle
  unsent := fun ht => (h.unsent ht).trans hle
  scheduled := h.scheduled
  views := fun v hv ht => (h.views v hv ht).trans (Nat.add_le_add_right hle _)

/-- A worker that has nothing to attempt after its step. -/
theorem Awaits.of_set (h : Awaits t d clock s) {w : WorkerId} {new : WorkerState}
    (hs' : s'.workers = s.workers.set w new) (hnew : ∀ {α : Type} (g : Slot → List α), new.bySlot g = [])
    (hstream : s'.stream.undelivered = s.stream.undelivered) (hretry : s'.stores.retryPending = s.stores.retryPending)
    (hsweeper : s'.retrySweeper = s.retrySweeper) : Awaits t d clock s' where
  undelivered := hstream ▸ h.undelivered
  inHand := hsweeper ▸ h.inHand
  ranged := hsweeper ▸ h.ranged
  unsent := fun ht => by
    rw [hs'] at ht
    rcases mem_held_set ht with ht | ht
    · rw [hnew] at ht
      cases ht
    · exact h.unsent ht
  scheduled := hretry ▸ h.scheduled
  views := fun v hv ht => by
    rw [hs'] at hv
    rcases mem_held_set hv with hv | hv
    · rw [hnew] at hv
      cases hv
    · exact h.views v hv ht

/-- A step of the sweeper. -/
theorem Awaits.of_sweeper (h : Awaits t d clock s) (hworkers : s'.workers = s.workers)
    (hundelivered : ∀ e ∈ s'.stream.undelivered, e.taskId = t → d ≤ clock)
    (hhand : t ∈ s'.retrySweeper.inHand → d ≤ clock)
    (hranged : ∀ due, s'.retrySweeper = .ranged due → t ∈ due → d ≤ clock)
    (hscheduled : ∀ at_, s'.stores.retryPending.lookup t = some at_ → d ≤ at_) : Awaits t d clock s' where
  undelivered := hundelivered
  inHand := hhand
  ranged := hranged
  unsent := hworkers ▸ h.unsent
  scheduled := hscheduled
  views := hworkers ▸ h.views

theorem Awaits.slot (h : Awaits t d clock s) {w : WorkerId} {i : ℕ} {sa : SlotAction} {slots : List Slot}
    {slot : Slot} {e : SlotEffect} (hnow : (Action.slot w i sa).now?.all (· = clock))
    (hw : s.workers[w]? = some (.gathering slots)) (hi : slots[i]? = some slot)
    (hmove : SlotMove lib rateLimiter w s.stores slot sa e) :
    Awaits t d clock { s with
      stores := e.stores
      sent := s.sent ++ e.sent
      published := s.published ++ e.published
      workers := s.workers.set w (.gathering (slots.set i { slot with phase := e.phase })) } := by
  have hslots : ∀ {α : Type} (g : Slot → List α) {b : α},
      b ∈ (WorkerState.gathering (slots.set i { slot with phase := e.phase })).bySlot g →
      b ∈ g { slot with phase := e.phase } ∨ b ∈ held (WorkerState.bySlot g) s.workers := by
    intro α g b hb
    obtain ⟨slot', hslot', hb⟩ := List.mem_flatMap.1 hb
    rcases List.mem_or_eq_of_mem_set hslot' with hslot' | rfl
    · exact .inr (mem_held.2 ⟨_, List.mem_of_getElem? hw, List.mem_flatMap.2 ⟨slot', hslot', hb⟩⟩)
    · exact .inl hb
  have hold : ∀ {α : Type} (g : Slot → List α) {b : α}, b ∈ g slot → b ∈ held (WorkerState.bySlot g) s.workers :=
    fun g _ hb => Multiset.mem_of_le (coe_le_held_of_slot (g := g) hw hi) hb
  refine ⟨h.undelivered, h.inHand, h.ranged, fun ht => ?_, fun at_ hat => ?_, fun v hv ht => ?_⟩
  · rcases mem_held_set ht with ht | ht
    · rcases hslots Slot.unsent ht with ht | ht
      · exact h.unsent (hold Slot.unsent (unsent_of_slotMove hmove ht))
      · exact h.unsent ht
    · exact h.unsent ht
  · rcases score_of_slotMove (i := i) hmove hnow hat with hat | ⟨ht, hle⟩ | ⟨v, hv, ht, rfl⟩
    · exact h.scheduled at_ hat
    · exact (h.unsent (hold Slot.unsent ht)).trans hle
    · exact h.views v (hold Slot.views hv) ht
  · rcases mem_held_set hv with hv | hv
    · rcases hslots Slot.views hv with hv | hv
      · have hsent : t ∈ slot.unsent := ht ▸ views_of_slotMove hmove hv
        exact (h.unsent (hold Slot.unsent hsent)).trans (Nat.le_add_right _ _)
      · exact h.views v hv ht
    · exact h.views v hv ht

theorem Awaits.step (h : Awaits t d clock s) (hf : a.faultless) (hnow : a.now?.all (· = clock))
    (hm : Move lib rateLimiter s a s') : Awaits t d clock s' := by
  cases hm with
  | @consume w count now hw =>
    have hund : (s.stream.consume (.worker w) count now).undelivered = s.stream.undelivered.drop count :=
      Stream.undelivered_consume _ _ _ _
    refine ⟨fun e he => h.undelivered e (List.mem_of_mem_drop (hund ▸ he)), h.inHand, h.ranged, fun ht => ?_,
      h.scheduled, fun v hv ht => ?_⟩
    · rcases mem_held_set ht with ht | ht
      · rw [bySlot_afterConsume] at ht
        obtain ⟨e, he, ht⟩ := List.mem_flatMap.1 ht
        exact h.undelivered e (List.mem_of_mem_take he) (List.mem_singleton.1 ht).symm
      · exact h.unsent ht
    · rcases mem_held_set hv with hv | hv
      · rw [bySlot_afterConsume] at hv
        obtain ⟨e, -, hv⟩ := List.mem_flatMap.1 hv
        cases hv
      · exact h.views v hv ht
  | slot hw hi hmove => exact h.slot hnow hw hi hmove
  | gather hw => exact h.of_set rfl (fun g => bySlot_afterGather g _) rfl rfl rfl
  | write hw => exact h.of_set rfl (fun g => bySlot_afterWrite g _ _) rfl rfl rfl
  | @ack w call entryIds hw =>
    refine h.of_set rfl (fun _ => rfl) ?_ rfl rfl
    unfold runAck
    dsimp only
    split <;> rfl
  | crash => cases hf
  | @retryRange now limit hs =>
    obtain rfl : now = clock := by simpa [Action.now?] using hnow
    refine h.of_sweeper rfl h.undelivered ?_ ?_ h.scheduled
    · dsimp only
      split <;> rintro ⟨⟩
    · intro due hdue ht
      dsimp only at hdue
      split at hdue
      · cases hdue
      · cases hdue
        obtain ⟨at_, hat, hle⟩ := RetryQueue.mem_due ht
        exact (h.scheduled at_ (Dict.lookup_eq_some_iff.2 hat)).trans hle
  | @retryRemove call due hs =>
    obtain rfl : call = .ok := by simpa [Action.faultless] using hf
    refine h.of_sweeper rfl h.undelivered (h.ranged due hs) (fun _ hdue => by cases hdue) fun at_ hat => ?_
    have hmem := Dict.lookup_eq_some_iff.1 hat
    exact h.scheduled at_ (Dict.lookup_eq_some_iff.2 (Table.mem_filter.1 hmem).1)
  | @retryEnqueue call u rest hs =>
    obtain rfl : call = .ok := by simpa [Action.faultless] using hf
    have hhand : ∀ {x : UUID}, x ∈ u :: rest → x = t → d ≤ clock := by
      rintro x hx rfl
      exact h.inHand (hs ▸ hx)
    refine h.of_sweeper rfl (fun e he ht => ?_) (fun ht => hhand (List.mem_cons_of_mem u ht) rfl)
      (fun _ hdue => by cases hdue) h.scheduled
    have hlog : (s.stream.enqueue u).undelivered = s.stream.undelivered ++ [⟨s.stream.log.length, u⟩] :=
      Stream.undelivered_enqueue _ _
    rcases List.mem_append.1 (hlog ▸ he) with he | he
    · exact h.undelivered e he ht
    · obtain rfl := List.mem_singleton.1 he
      exact hhand List.mem_cons_self ht
  | @retryReschedule now call u rest hs =>
    obtain rfl : call = .ok := by simpa [Action.faultless] using hf
    obtain rfl : now = clock := by simpa [Action.now?] using hnow
    have hhand : ∀ {x : UUID}, x ∈ u :: rest → x = t → d ≤ now := by
      rintro x hx rfl
      exact h.inHand (hs ▸ hx)
    refine h.of_sweeper rfl h.undelivered (fun ht => hhand (List.mem_cons_of_mem u ht) rfl)
      (fun _ hdue => by cases hdue) fun at_ hat => ?_
    rw [Stores.scheduleRetry_retryPending, Call.tookEffect, if_pos rfl, RetryQueue.scheduleRetry, Dict.lookup_put] at hat
    split at hat
    · rename_i ht
      cases hat
      exact hhand List.mem_cons_self ht.symm
    · exact h.scheduled at_ hat
  | reclaim => cases hf
  | reclaimEnqueue => cases hf
  | reclaimAck => cases hf

end

section
variable {lib : Libraries} {limiter : Option RateLimiter} {s₀ : System} {s s' : Rationed} {a : RationedAction}
  {t : UUID} {clock : Timestamp}

theorem held_executing (ws : List WorkerState) :
    held (WorkerState.bySlot Slot.executing) ws =
      (held (WorkerState.bySlot Slot.views) ws).map fun v => v.testTask.id := by
  have hstate : ∀ x : WorkerState,
      x.bySlot Slot.executing = (x.bySlot Slot.views).map fun v => v.testTask.id := by
    intro x
    cases x with
    | gathering slots =>
      rw [WorkerState.bySlot, WorkerState.bySlot, List.map_flatMap]
      exact congrArg (slots.flatMap ·) (funext Slot.executing_eq)
    | _ => rfl
  rw [held, held, Multiset.map_coe, List.map_flatMap]
  exact congrArg _ (congrArg (ws.flatMap ·) (funext hstate))

/-- A task with a request on its way, and one place, has nothing else. -/
theorem awaits_of_executing {u : System} (hone : u.places t ≤ 1) (hr : RangedIn u) {v : TaskView}
    (hv : v ∈ held (WorkerState.bySlot Slot.views) u.workers) (ht : v.testTask.id = t) :
    Awaits t (clock + computeBackoffSeconds v.testTask.retryCount * 1000000) clock u := by
  have hexec : u.executing t = ((held (WorkerState.bySlot Slot.views) u.workers).filter
      fun v => t = v.testTask.id).card := by
    rw [System.executing, held_executing, Multiset.count_map]
  have hmem : v ∈ (held (WorkerState.bySlot Slot.views) u.workers).filter fun v => t = v.testTask.id :=
    Multiset.mem_filter.2 ⟨hv, ht.symm⟩
  have hpos : 0 < u.executing t := hexec ▸ Multiset.card_pos.2 fun h => by
    rw [h] at hmem
    cases hmem
  have hnone : (u.stream.undelivered.map StreamEntry.taskId).count t = 0 ∧ u.stores.retryPending.keys.count t = 0 ∧
      u.retrySweeper.inHand.count t = 0 ∧ (held (WorkerState.bySlot Slot.unsent) u.workers).count t = 0 := by
    simp only [System.places, System.unsent, System.scheduled] at hone
    omega
  obtain ⟨hund, hkeys, hhand, hunsent⟩ := hnone
  have hoff : t ∉ u.stores.retryPending.keys := List.count_eq_zero.1 hkeys
  refine ⟨fun e he htask => ?_, fun hmem => ?_, fun due hdue hmem => ?_, fun hmem => ?_, fun at_ hat => ?_,
    fun v' hv' htask => ?_⟩
  · exact absurd (List.mem_map.2 ⟨e, he, htask⟩) (List.count_eq_zero.1 hund)
  · exact absurd hmem (List.count_eq_zero.1 hhand)
  · exact absurd ((hr due hdue).2 t hmem) hoff
  · exact absurd hmem (Multiset.count_eq_zero.1 hunsent)
  · exact absurd (List.mem_map.2 ⟨_, Dict.lookup_eq_some_iff.1 hat, rfl⟩) hoff
  · -- the request on its way is this one
    have hcard : ((held (WorkerState.bySlot Slot.views) u.workers).filter fun v => t = v.testTask.id).card = 1 := by
      rw [← hexec]
      simp only [System.places] at hone
      omega
    obtain ⟨q, hq⟩ := Multiset.card_eq_one.1 hcard
    have hmem' : v' ∈ (held (WorkerState.bySlot Slot.views) u.workers).filter fun v => t = v.testTask.id :=
      Multiset.mem_filter.2 ⟨hv', htask.symm⟩
    rw [hq, Multiset.mem_singleton] at hmem hmem'
    rw [hmem', hmem]

/-- The request of a send is on its way after it. -/
theorem mem_views_of_send {w : WorkerId} {i : ℕ} {allowed : Bool} {now : Timestamp} {call : Call} {u u' : System}
    {slot : Slot} {v : TaskView} {chain : Dict String String} {rateLimiter : Bool}
    (hm : Move lib rateLimiter u (.slot w i (.send allowed now call)) u') (hat : u.slotAt? w i = some slot)
    (hph : slot.phase = .resolved v chain) (hsent : u'.sent = u.sent ++ v.requests chain)
    (hnew : v.requests chain ≠ []) :
    v.testTask.id ∈ held (WorkerState.bySlot Slot.unsent) u.workers ∧
      v ∈ held (WorkerState.bySlot Slot.views) u'.workers := by
  cases hm with
  | @slot _ _ _ slots slot' e hw hi hmove =>
    obtain rfl := Option.some.inj ((slotAt?_eq hw hi).symm.trans hat)
    refine ⟨Multiset.mem_of_le (coe_le_held_of_slot (g := Slot.unsent) hw hi) (by simp [Slot.unsent, hph]), ?_⟩
    have hwlt := (List.getElem?_eq_some_iff.1 hw).1
    have hilt := (List.getElem?_eq_some_iff.1 hi).1
    refine mem_held.2 ⟨_, List.mem_of_getElem? (List.getElem?_set_self hwlt), ?_⟩
    refine List.mem_flatMap.2 ⟨_, List.mem_of_getElem? (List.getElem?_set_self hilt), ?_⟩
    cases hmove with
    | refused =>
      dsimp only at hsent
      rw [List.append_nil] at hsent
      exact absurd (List.self_eq_append_right.1 hsent) hnew
    | sent hph' =>
      cases hph'.symm.trans hph
      exact List.mem_singleton_self v

theorem faultless_of_asks {b : Action} {u : Rationed} (ha : Asks lib limiter s a b u) (hf : a.faultless)
    (hnow : s.onTime a) : b.faultless ∧ b.now?.all (· = s.clock) := by
  cases ha with
  | nothing => exact ⟨hf, hnow⟩
  | token => exact ⟨hf, hnow⟩
  | tokenLost => cases hf

theorem Awaits.rationed {d : Timestamp} (h : Awaits t d s.clock s.system) (hf : a.faultless) (hnow : s.onTime a)
    (hm : RationedMove lib limiter s a s') : Awaits t d s'.clock s'.system := by
  cases hm with
  | tick => exact h.later (Nat.le_add_right _ _)
  | act ha hmove =>
    obtain ⟨hb, hbnow⟩ := faultless_of_asks ha hf hnow
    dsimp only
    rw [ha.same.2.1]
    exact h.step hb hbnow hmove

/-- A step lets at most one request of the task through. The task has a place before it, and
the request is on its way after it. -/
theorem releasesOf_of_move (hm : RationedMove lib limiter s a s') :
    s'.releasesOf t = s.releasesOf t ∨ ∃ v r,
      s'.releasesOf t = s.releasesOf t ++ [⟨s.clock, v.testTask.retryCount, r⟩] ∧ s'.clock = s.clock ∧
        v.testTask.id = t ∧ t ∈ held (WorkerState.bySlot Slot.unsent) s.system.workers ∧
          v ∈ held (WorkerState.bySlot Slot.views) s'.system.workers := by
  cases hm with
  | tick => exact .inl rfl
  | @act a b u system ha hmove =>
    have hquiet : (s.releasesBy system b).filter (fun p => p.sent.testTaskId = t) = [] →
        (s.releases ++ s.releasesBy system b).filter (fun p => p.sent.testTaskId = t) = s.releasesOf t := by
      intro hnil
      rw [List.filter_append, hnil, List.append_nil]
      rfl
    rcases releasesBy_of_move hmove with
      ⟨hby, -⟩ | ⟨w, i, allowed, now, call, slot, v, chain, st', rfl, hat, hph, -, hby, hsent⟩
    · exact .inl (hquiet (by rw [hby, List.filter_nil]))
    · rcases hv : v.requests chain with _ | ⟨r, rs⟩
      · exact .inl (hquiet (by rw [hby, hv]; rfl))
      · obtain ⟨rfl, hr⟩ : rs = [] ∧ r.testTaskId = v.testTask.id := by
          unfold TaskView.requests at hv
          split at hv
          · cases hv
            exact ⟨rfl, rfl⟩
          · cases hv
        by_cases ht : v.testTask.id = t
        · obtain ⟨hunsent, hviews⟩ := mem_views_of_send hmove hat hph hsent (by simp [hv])
          refine .inr ⟨v, r, ?_, ha.same.2.1, ht, ht ▸ hunsent, hviews⟩
          rw [Rationed.releasesOf, List.filter_append, hby, hv]
          simp [hr, ht, Rationed.releasesOf]
        · exact .inl (hquiet (by rw [hby, hv]; simp [hr, ht]))

structure Spaced (t : UUID) (s : Rationed) : Prop where
  places : s.system.places t ≤ 1
  ranged : RangedIn s.system
  awaits : ∀ p ∈ (s.releasesOf t).getLast?, Awaits t p.due s.clock s.system
  spaced : (s.releasesOf t).IsChain fun p q => p.due ≤ q.at_

theorem Spaced.step (h : Spaced t s) (hf : a.faultless) (hnow : s.onTime a)
    (hm : RationedMove lib limiter s a s') : Spaced t s' := by
  have hone : s'.system.places t ≤ 1 ∧ RangedIn s'.system := by
    cases hm with
    | tick => exact ⟨h.places, h.ranged⟩
    | act ha hmove =>
      obtain ⟨hb, -⟩ := faultless_of_asks ha hf hnow
      exact ⟨(places_le_of_move h.ranged hb hmove t).trans h.places, h.ranged.step hmove⟩
  obtain ⟨hplaces, hranged⟩ := hone
  rcases releasesOf_of_move (t := t) hm with hsame | ⟨v, r, hnew, hclock, ht, hunsent, hviews⟩
  · refine ⟨hplaces, hranged, fun p hp => ?_, ?_⟩
    · rw [hsame] at hp
      exact (h.awaits p hp).rationed hf hnow hm
    · rw [hsame]
      exact h.spaced
  · refine ⟨hplaces, hranged, fun p hp => ?_, ?_⟩
    · rw [hnew, List.getLast?_append, List.getLast?_singleton] at hp
      obtain rfl := Option.some.inj hp
      rw [hclock]
      exact awaits_of_executing hplaces hranged hviews ht
    · rw [hnew]
      refine h.spaced.append (.singleton _) fun p hp q hq => ?_
      obtain rfl := Option.some.inj hq
      exact (h.awaits p hp).unsent hunsent

/-- While a request of the task is on its way, whatever follows keeps off for the backoff. -/
theorem Spaced.after {u : Rationed} {as : List RationedAction} {v : TaskView} (h : Spaced t u)
    (hv : v ∈ held (WorkerState.bySlot Slot.views) u.system.workers) (ht : v.testTask.id = t)
    (hr : Run (rationedStep lib limiter) u as s)
    (hf : Each (rationedStep lib limiter) (fun _ a => a.faultless) u as)
    (hnow : Each (rationedStep lib limiter) (fun s a => s.onTime a) u as) :
    ∃ later, s.releasesOf t = u.releasesOf t ++ later ∧
      ∀ q ∈ later, u.clock + computeBackoffSeconds v.testTask.retryCount * 1000000 ≤ q.at_ := by
  let d := u.clock + computeBackoffSeconds v.testTask.retryCount * 1000000
  have hstart : Awaits t d u.clock u.system := awaits_of_executing h.places h.ranged hv ht
  have hend : Awaits t d s.clock s.system ∧
      ∃ later, s.releasesOf t = u.releasesOf t ++ later ∧ ∀ q ∈ later, d ≤ q.at_ := by
    refine hr.invariant (I := fun x : Rationed => Awaits t d x.clock x.system ∧
      ∃ later, x.releasesOf t = u.releasesOf t ++ later ∧ ∀ q ∈ later, d ≤ q.at_) (hf.and hnow)
      ⟨hstart, [], (List.append_nil _).symm, by rintro q ⟨⟩⟩ ?_
    rintro x a x' ⟨hawaits, later, hlater, hdue⟩ ⟨hf, hnow⟩ hstep
    have hm := rationedMove_of_step hstep
    refine ⟨hawaits.rationed hf hnow hm, ?_⟩
    rcases releasesOf_of_move (t := t) hm with hsame | ⟨v', r, hnew, -, -, hunsent, -⟩
    · exact ⟨later, hsame.trans hlater, hdue⟩
    · refine ⟨later ++ [⟨x.clock, v'.testTask.retryCount, r⟩], by rw [hnew, hlater, List.append_assoc], ?_⟩
      intro q hq
      rcases List.mem_append.1 hq with hq | hq
      · exact hdue q hq
      · rw [List.mem_singleton.1 hq]
        exact hawaits.unsent hunsent
  exact hend.2

theorem Fresh.spaced (h : Fresh s₀) (clock : Timestamp) (t : UUID) : Spaced t (s₀.rationed clock) where
  places := by
    have hnone : ∀ g : Slot → List UUID, held (WorkerState.bySlot g) s₀.workers = 0 := by
      intro g
      rw [Multiset.eq_zero_iff_forall_notMem]
      intro u hu
      obtain ⟨x, hx, hux⟩ := mem_held.1 hu
      rw [h.idle x hx] at hux
      cases hux
    have hlog : s₀.stream.undelivered.map StreamEntry.taskId = s₀.stream.log := by
      rw [Stream.undelivered, h.undelivered, List.drop_zero, List.map_map]
      exact List.zipIdx_map_fst 0 _
    have hone : s₀.stream.log.count t ≤ 1 := by
      rw [h.enqueued.count_eq]
      exact List.nodup_iff_count_le_one.1 s₀.stores.db.testTasks.nodup t
    simpa [System.rationed, System.places, System.unsent, System.executing, System.scheduled, hlog, hnone,
      h.noRetry, h.retrySweeper, RetrySweeper.inHand] using hone
  ranged := by
    intro due hdue
    cases h.retrySweeper.symm.trans hdue
  awaits := by
    rintro p ⟨⟩
  spaced := .nil

/-- Along a run in which no call fails, no process dies and nothing is reclaimed, however long
the steps take: between two requests of one task lies the backoff of the attempt before, at
whatever moment of that attempt its request has left. -/
theorem retries_back_off {as : List RationedAction} (h₀ : Fresh s₀)
    (hr : Run (rationedStep lib limiter) (s₀.rationed clock) as s)
    (hf : Each (rationedStep lib limiter) (fun _ a => a.faultless) (s₀.rationed clock) as)
    (hnow : Each (rationedStep lib limiter) (fun s a => s.onTime a) (s₀.rationed clock) as) (t : UUID) :
    ((s.releases.filter fun p => p.sent.testTaskId = t).IsChain fun p q =>
      p.at_ + computeBackoffSeconds p.retryCount * 1000000 ≤ q.at_) ∧
    ∀ bs cs u v, as = bs ++ cs → Run (rationedStep lib limiter) (s₀.rationed clock) bs u →
      v ∈ held (WorkerState.bySlot Slot.views) u.system.workers → v.testTask.id = t →
        ∃ later, (s.releases.filter fun p => p.sent.testTaskId = t) =
            (u.releases.filter fun p => p.sent.testTaskId = t) ++ later ∧
          ∀ q ∈ later, u.clock + computeBackoffSeconds v.testTask.retryCount * 1000000 ≤ q.at_ := by
  have hinv : Always (rationedStep lib limiter) (Spaced t) (s₀.rationed clock) as := by
    refine Run.always (hf.and hnow) (h₀.spaced clock t) ?_
    rintro u a u' hs ⟨hf, hnow⟩ hstep
    exact hs.step hf hnow (rationedMove_of_step hstep)
  refine ⟨(hinv.last hr).spaced, ?_⟩
  rintro bs cs u v rfl hu hv ht
  obtain ⟨u', hu', hcs⟩ := hr.split
  obtain rfl := hu.unique hu'
  exact (hinv bs u (List.prefix_append bs cs) hu).after hv ht hcs (hf.of_suffix hu) (hnow.of_suffix hu)

end

/-- The first request is on its way after four steps, and the second comes two seconds later. -/
theorem retries_back_off_rationedRetry :
    let s := final (rationedStep plainLibraries (some defaultLimiter)) (oneTask.rationed 0) rationedRetry
    let u := final (rationedStep plainLibraries (some defaultLimiter)) (oneTask.rationed 0) (rationedRetry.take 4)
    ((s.releases.filter fun p => p.sent.testTaskId = 0).IsChain fun p q =>
      p.at_ + computeBackoffSeconds p.retryCount * 1000000 ≤ q.at_) ∧
    ∃ later, (s.releases.filter fun p => p.sent.testTaskId = 0) =
        (u.releases.filter fun p => p.sent.testTaskId = 0) ++ later ∧
      later.length = 1 ∧ ∀ q ∈ later, 2000000 ≤ q.at_ := by
  intro s u
  obtain ⟨hchain, hafter⟩ := retries_back_off fresh_oneTask run_rationedRetry
    (each_of_eachB (p := fun _ a => a.faultless) (fun _ _ h => h) (by decide +kernel))
    (each_of_eachB (p := fun s a => s.onTime a) (fun _ _ h => h) (by decide +kernel)) 0
  obtain ⟨v, hv, ht⟩ : ∃ v ∈ held (WorkerState.bySlot Slot.views) u.system.workers, v.testTask.id = 0 := by
    have hexecuting : 0 < u.system.executing 0 := by decide +kernel
    have hmem := Multiset.count_pos.1 hexecuting
    rwa [held_executing, Multiset.mem_map] at hmem
  obtain ⟨later, hlater, hdue⟩ := hafter (rationedRetry.take 4) (rationedRetry.drop 4) u v
    (List.take_append_drop 4 _).symm (run_final _ (by decide +kernel)) hv ht
  refine ⟨hchain, later, hlater, ?_, fun q hq => ?_⟩
  · have hs : (s.releases.filter fun p => p.sent.testTaskId = 0).length = 2 := by decide +kernel
    have hu : (u.releases.filter fun p => p.sent.testTaskId = 0).length = 1 := by decide +kernel
    rw [hlater, List.length_append, hu] at hs
    exact Nat.succ.inj ((Nat.add_comm _ _).trans hs)
  · have hbackoff : 2 ≤ computeBackoffSeconds v.testTask.retryCount :=
      le_min (Nat.le_mul_of_pos_right 2 (Nat.two_pow_pos _)) (by decide)
    calc 2000000
      _ ≤ computeBackoffSeconds v.testTask.retryCount * 1000000 := Nat.mul_le_mul_right 1000000 hbackoff
      _ ≤ u.clock + computeBackoffSeconds v.testTask.retryCount * 1000000 := Nat.le_add_left _ _
      _ ≤ q.at_ := hdue q hq

end ApiTesting
