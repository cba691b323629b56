import ApiTesting.Proofs.Budget

/-! Who owns what. Each entry a worker has in hand is pending for it and for no
other worker, and the attempt that runs for an entry is one of its task. -/

namespace ApiTesting

open Keyed

/-- The attempt in a slot is one of the task of its entry. -/
def Slot.sound (slot : Slot) : Prop := ∀ b ∈ slot.attempts, b.taskId = slot.entry.taskId

/-- Each entry a worker has in hand is pending for it. -/
structure Owned (s : System) : Prop where
  pending : ∀ (w : WorkerId) (x : WorkerState), s.workers[w]? = some x → ∀ id ∈ x.entryIds,
    ∃ p ∈ s.stream.pending.rows, p.id = id ∧ p.consumer = .worker w
  slots : ∀ (w : WorkerId) (slots : List Slot), s.workers[w]? = some (.gathering slots) →
    (slots.map fun slot => slot.entry.entryId).Nodup ∧ ∀ slot ∈ slots, slot.sound ∧
      ∃ p ∈ s.stream.pending.rows, p.entry = slot.entry

section
variable {lib : Libraries} {rateLimiter : Bool} {s s' : System} {a : Action}

theorem eq_of_id_eq {st : Stream} {p q : Pending} (hp : p ∈ st.pending.rows) (hq : q ∈ st.pending.rows)
    (h : p.id = q.id) : p = q := List.inj_on_of_nodup_map st.pending.nodup hp hq h

theorem getElem?_set_cases {α : Type} {ws : List α} {w v : ℕ} {x y : α}
    (h : (ws.set w y)[v]? = some x) : v = w ∧ x = y ∨ v ≠ w ∧ ws[v]? = some x := by
  rw [List.getElem?_set] at h
  split at h
  · rename_i he
    split at h
    · cases h
      exact .inl ⟨he.symm, rfl⟩
    · cases h
  · rename_i he
    exact .inr ⟨fun hv => he hv.symm, h⟩

/-! The attempts of one slot. -/

theorem Slot.sound_of_move {w : WorkerId} {st : Stores} {slot : Slot} {sa : SlotAction} {e : SlotEffect}
    (h : slot.sound) (hm : SlotMove lib rateLimiter w st slot sa e) :
    ({ slot with phase := e.phase } : Slot).sound := by
  have hrun : ∀ v, .running v ∈ slot.attempts → v.testTask.id = slot.entry.taskId := fun v hv => h _ hv
  intro b hb
  cases hm with
  | load hph hload =>
    obtain rfl := List.mem_singleton.1 hb
    exact (Table.get?_eq_some_iff.1 (loadTask_eq_ok_iff.1 hload).1).2
  | readContext hph =>
    obtain rfl := List.mem_singleton.1 hb
    exact hrun _ (by simp [Slot.attempts, hph, Phase.attempts])
  | sent hph =>
    obtain rfl := List.mem_singleton.1 hb
    exact hrun _ (by simp [Slot.attempts, hph, Phase.attempts])
  | @judged v chain reply now call expireCall write o hph hj =>
    rcases hp : (st.perform v write now call expireCall).1 with err | u
    · simp only [Slot.attempts, hp] at hb
      cases hb
    · simp only [Slot.attempts, hp] at hb
      obtain rfl := List.mem_singleton.1 hb
      exact (judgeReply_concludes hj).testTaskId.trans
        (hrun v (by simp [Slot.attempts, hph, Phase.attempts]))
  | missing => cases hb
  | refused => cases hb
  | unjudged => cases hb
  | callRaised => cases hb

/-! Who owns what, step by step. -/

theorem entryIds_afterConsume (batch : List StreamEntry) :
    (afterConsume batch).entryIds = batch.map StreamEntry.entryId := by
  unfold afterConsume
  split
  · rename_i h
    rw [List.isEmpty_iff.1 h]
    rfl
  · simp [WorkerState.entryIds]

theorem mem_entryIds_beforeAck {entryIds : List ℕ} {id : ℕ}
    (h : id ∈ (beforeAck entryIds).entryIds) : id ∈ entryIds := by
  unfold beforeAck at h
  split at h
  · cases h
  · exact h

theorem mem_entryIds_afterWrite {result : Except Exn Unit} {entryIds : List ℕ} {id : ℕ}
    (h : id ∈ (afterWrite result entryIds).entryIds) : id ∈ entryIds := by
  cases result with
  | error e => cases h
  | ok u => exact mem_entryIds_beforeAck h

theorem mem_entryIds_afterGather {b : Batch} {id : ℕ} (h : id ∈ (afterGather b).entryIds) :
    id ∈ b.entryIdsToAck := by
  unfold afterGather at h
  split at h
  · exact mem_entryIds_beforeAck h
  · exact h

theorem beforeAck_ne_gathering (entryIds : List ℕ) (slots : List Slot) :
    beforeAck entryIds ≠ .gathering slots := by
  unfold beforeAck
  split <;> simp

theorem afterGather_ne_gathering (b : Batch) (slots : List Slot) : afterGather b ≠ .gathering slots := by
  unfold afterGather
  split
  · exact beforeAck_ne_gathering _ slots
  · simp

theorem afterWrite_ne_gathering (result : Except Exn Unit) (entryIds : List ℕ) (slots : List Slot) :
    afterWrite result entryIds ≠ .gathering slots := by
  cases result with
  | ok u => exact beforeAck_ne_gathering entryIds slots
  | error e => simp [afterWrite]

/-- An entry `gather` hands over for acknowledgement has an outcome or was dropped on purpose. -/
theorem exists_slot_of_mem_gathered {slots : List Slot} {id : ℕ}
    (h : id ∈ (collect (slots.filterMap Slot.result?)).entryIdsToAck) :
    ∃ slot ∈ slots, slot.entry.entryId = id ∧
      ((∃ o, slot.phase = .returned (.ok o) ∧ o ∈ (collect (slots.filterMap Slot.result?)).outcomes) ∨
        ∃ e, slot.phase = .returned (.error e) ∧ e.handled) := by
  obtain ⟨oo, ho⟩ := mem_collect_ids.1 h
  obtain ⟨slot, hslot, hres⟩ := List.mem_filterMap.1 ho
  rcases hph : slot.phase with _ | _ | _ | _ | r
  case returned =>
    have hr : processEntry slot.entry r = .ok (id, oo) := by simpa [Slot.result?, hph] using hres
    rcases r with e | o
    · simp only [processEntry] at hr
      split at hr
      · rename_i hhandled
        cases hr
        exact ⟨slot, hslot, rfl, .inr ⟨e, hph, hhandled⟩⟩
      · cases hr
    · cases hr
      exact ⟨slot, hslot, rfl, .inl ⟨o, hph, mem_collect_outcomes.2 ⟨_, ho⟩⟩⟩
  all_goals simp [Slot.result?, hph] at hres

/-! The slots after a step. -/

section
variable {w : WorkerId} {i : ℕ} {slot slot' : Slot}

theorem slotAt?_eq_some_iff : s.slotAt? w i = some slot ↔
    ∃ slots, s.workers[w]? = some (.gathering slots) ∧ slots[i]? = some slot := by
  constructor
  · intro h
    unfold System.slotAt? at h
    split at h
    · exact ⟨_, ‹_›, h⟩
    · cases h
  · rintro ⟨slots, hw, hi⟩
    exact slotAt?_eq hw hi

/-- A slot after a step was there before it, or has moved in it, or is new in a batch. -/
theorem slotAt?_of_move (hm : Move lib rateLimiter s a s') (h : s'.slotAt? w i = some slot') :
    (s.slotAt? w i = some slot' ∧ ∀ sa, a ≠ .slot w i sa) ∨
    (∃ sa slot e, a = .slot w i sa ∧ s.slotAt? w i = some slot ∧
      SlotMove lib rateLimiter w s.stores slot sa e ∧ slot' = { slot with phase := e.phase }) ∨
    ∃ count now, a = .consume w count now ∧ (s.stream.batch count)[i]? = some slot'.entry ∧
      slot'.phase = .delivered := by
  obtain ⟨slots', hw', hi'⟩ := slotAt?_eq_some_iff.1 h
  -- the steps that leave no worker gathering that was not
  have hold : ∀ (v : WorkerId) (new : WorkerState), (∀ slots, new ≠ .gathering slots) →
      s'.workers = s.workers.set v new → s.slotAt? w i = some slot' := by
    intro v new hnew hws
    rw [hws] at hw'
    rcases getElem?_set_cases hw' with ⟨-, he⟩ | ⟨-, hw'⟩
    · exact absurd he.symm (hnew slots')
    · exact slotAt?_eq hw' hi'
  cases hm with
  | @consume v count now hv =>
    rcases getElem?_set_cases hw' with ⟨rfl, he⟩ | ⟨-, hw'⟩
    · unfold afterConsume at he
      split at he
      · cases he
      · cases he
        obtain ⟨e, he, rfl⟩ := Option.map_eq_some_iff.1 (List.getElem?_map .. ▸ hi')
        exact .inr (.inr ⟨count, now, rfl, he, rfl⟩)
    · exact .inl ⟨slotAt?_eq hw' hi', fun sa => by simp⟩
  | @slot v j sa slots slot e hv hj hmove =>
    rcases getElem?_set_cases hw' with ⟨rfl, he⟩ | ⟨hne, hw'⟩
    · cases he
      rcases getElem?_set_cases hi' with ⟨rfl, rfl⟩ | ⟨hne, hi'⟩
      · exact .inr (.inl ⟨sa, slot, e, rfl, slotAt?_eq hv hj, hmove, rfl⟩)
      · refine .inl ⟨slotAt?_eq hv hi', fun sa' he => hne ?_⟩
        cases he
        rfl
    · refine .inl ⟨slotAt?_eq hw' hi', fun sa' he => hne ?_⟩
      cases he
      rfl
  | gather => exact .inl ⟨hold _ _ (afterGather_ne_gathering _) rfl, fun sa => by simp⟩
  | write => exact .inl ⟨hold _ _ (afterWrite_ne_gathering _ _) rfl, fun sa => by simp⟩
  | ack => exact .inl ⟨hold _ _ (fun slots he => by cases he) rfl, fun sa => by simp⟩
  | crash => exact .inl ⟨hold _ _ (fun slots he => by cases he) rfl, fun sa => by simp⟩
  | _ => exact .inl ⟨slotAt?_eq hw' hi', fun sa => by simp⟩

end

theorem entryIds_set_slot {slots : List Slot} {i : ℕ} {slot : Slot} (hi : slots[i]? = some slot)
    (phase : Phase) :
    (slots.set i { slot with phase }).map (fun q => q.entry.entryId) =
      slots.map fun q => q.entry.entryId := by
  rw [List.map_set]
  apply List.ext_getElem?
  intro j
  rw [List.getElem?_set]
  split
  · rename_i hj
    subst hj
    rw [List.getElem?_map, hi]
    split
    · rfl
    · rename_i hlt
      rw [List.length_map] at hlt
      exact absurd (List.getElem?_eq_some_iff.1 hi).1 hlt
  · rfl

theorem mem_pending_runAck {st : Stream} {entryIds : List ℕ} {call : Call} {p : Pending}
    (hp : p ∈ st.pending.rows) (hid : p.id ∉ entryIds) :
    p ∈ (runAck entryIds call st).2.pending.rows := by
  unfold runAck
  dsimp only
  split
  · exact Table.mem_filter.2 ⟨hp, by simpa using hid⟩
  · exact hp

/-- Steps that leave the workers alone and take nothing off the pending list. -/
theorem Owned.of_eq (h : Owned s) (hw : s'.workers = s.workers)
    (hp : s'.stream.pending = s.stream.pending) : Owned s' := by
  refine ⟨?_, ?_⟩
  · rw [hw, hp]
    exact h.pending
  · rw [hw, hp]
    exact h.slots

/-- A step of one worker: what it has in hand afterwards is pending for it, and what the
others have pending stays so. -/
theorem Owned.of_set (h : Owned s) {w : WorkerId} {y : WorkerState}
    (hworkers : s'.workers = s.workers.set w y)
    (hkept : ∀ v p, v ≠ w → p ∈ s.stream.pending.rows → p.consumer = .worker v → p ∈ s'.stream.pending.rows)
    (hpending : ∀ id ∈ y.entryIds, ∃ p ∈ s'.stream.pending.rows, p.id = id ∧ p.consumer = .worker w)
    (hslots : ∀ slots, y = .gathering slots → (slots.map fun slot => slot.entry.entryId).Nodup ∧
      ∀ slot ∈ slots, slot.sound ∧ ∃ p ∈ s'.stream.pending.rows, p.entry = slot.entry) : Owned s' := by
  refine ⟨?_, ?_⟩
  · intro v x hx id hid
    rw [hworkers] at hx
    rcases getElem?_set_cases hx with ⟨rfl, rfl⟩ | ⟨hv, hx⟩
    · exact hpending id hid
    · obtain ⟨p, hp, hpid, hc⟩ := h.pending v x hx id hid
      exact ⟨p, hkept v p hv hp hc, hpid, hc⟩
  · intro v slots hx
    rw [hworkers] at hx
    rcases getElem?_set_cases hx with ⟨rfl, he⟩ | ⟨hv, hx⟩
    · exact hslots slots he.symm
    · obtain ⟨hnd, hall⟩ := h.slots v slots hx
      refine ⟨hnd, fun slot hslot => ?_⟩
      obtain ⟨hsound, p, hp, he⟩ := hall slot hslot
      -- the entry of the slot is pending for its worker
      obtain ⟨q, hq, hqid, hqc⟩ := h.pending v _ hx slot.entry.entryId (List.mem_map_of_mem hslot)
      obtain rfl := eq_of_id_eq hq hp (by rw [hqid, ← he]; rfl)
      exact ⟨hsound, q, hkept v q hv hq hqc, he⟩

theorem Owned.step (h : Owned s) (hf : a.faultless) (hm : Move lib rateLimiter s a s') : Owned s' := by
  cases hm with
  | @consume w count now hw =>
    have hnew : ∀ e ∈ s.stream.batch count,
        ⟨e, .worker w, now⟩ ∈ (s.stream.consume (.worker w) count now).pending.rows :=
      fun e he => List.mem_append.2 (.inr (List.mem_map_of_mem he))
    refine h.of_set rfl (fun v p _ hp _ => List.mem_append.2 (.inl hp)) ?_ ?_
    · intro id hid
      rw [entryIds_afterConsume] at hid
      obtain ⟨e, he, rfl⟩ := List.mem_map.1 hid
      exact ⟨_, hnew e he, rfl, rfl⟩
    · intro slots he
      unfold afterConsume at he
      split at he
      · cases he
      · cases he
        refine ⟨?_, ?_⟩
        · rw [List.map_map]
          exact s.stream.batch_ids count ▸ List.nodup_range'
        · intro slot hslot
          obtain ⟨e, he, rfl⟩ := List.mem_map.1 hslot
          refine ⟨?_, _, hnew e he, rfl⟩
          intro b hb
          cases hb
  | @slot w i sa slots slot e hw hi hmove =>
    obtain ⟨hnd, hslots⟩ := h.slots w slots hw
    refine h.of_set rfl (fun v p _ hp _ => hp) ?_ ?_
    · intro id hid
      rw [WorkerState.entryIds, entryIds_set_slot hi] at hid
      exact h.pending w _ hw id hid
    · rintro slots' ⟨⟩
      refine ⟨by rwa [entryIds_set_slot hi], fun slot' hslot' => ?_⟩
      rcases List.mem_or_eq_of_mem_set hslot' with hslot' | rfl
      · exact hslots slot' hslot'
      · obtain ⟨hsound, hp⟩ := hslots slot (List.mem_of_getElem? hi)
        exact ⟨Slot.sound_of_move hsound hmove, hp⟩
  | @gather w slots hw hall =>
    refine h.of_set rfl (fun v p _ hp _ => hp) ?_ ?_
    · intro id hid
      obtain ⟨slot, hslot, rfl, -⟩ := exists_slot_of_mem_gathered (mem_entryIds_afterGather hid)
      exact h.pending w _ hw _ (List.mem_map_of_mem hslot)
    · intro slots' he
      exact absurd he (afterGather_ne_gathering _ slots')
  | @write w now call b hw =>
    refine h.of_set rfl (fun v p _ hp _ => hp) ?_ ?_
    · intro id hid
      exact h.pending w _ hw id (mem_entryIds_afterWrite hid)
    · intro slots' he
      exact absurd he (afterWrite_ne_gathering _ _ slots')
  | @ack w call entryIds hw =>
    refine h.of_set rfl (fun v p hv hp hc => mem_pending_runAck hp fun hid => hv ?_) ?_ ?_
    · obtain ⟨q, hq, hqid, hqc⟩ := h.pending w _ hw p.id hid
      obtain rfl := eq_of_id_eq hq hp hqid
      rw [hc] at hqc
      exact (Consumer.worker.injEq _ _).mp hqc
    · intro id hid
      cases hid
    · rintro slots' ⟨⟩
  | crash => cases hf
  | retryRange => exact h.of_eq rfl rfl
  | retryRemove => exact h.of_eq rfl rfl
  | retryEnqueue =>
    refine h.of_eq rfl ?_
    dsimp only
    split <;> rfl
  | retryReschedule => exact h.of_eq rfl rfl
  | reclaim => cases hf
  | reclaimEnqueue => cases hf
  | reclaimAck => cases hf

theorem Fresh.owned (h : Fresh s) : Owned s := by
  refine ⟨?_, ?_⟩
  · intro w x hx id hid
    rw [h.idle x (List.mem_of_getElem? hx)] at hid
    cases hid
  · intro w slots hx
    cases h.idle _ (List.mem_of_getElem? hx)

end

end ApiTesting
