import ApiTesting.Lib.Machine
import ApiTesting.Proofs.Ownership
import ApiTesting.Spec.ClockedSystem

/-! The reclaim sweep and a live worker. The default `min_idle_ms` is the largest
`timeout_ms` with a margin for the worker's own part of a cycle. A cycle stays below it as
long as each request is over within that timeout as a whole; a request whose waits are
each within the timeout may take longer. -/

namespace ApiTesting

open Keyed Machine

/-- The request of a send is over in less than the largest timeout, all waits together. -/
def Brisk : Clocked → ClockedAction → Prop
  | _, .act (.slot _ _ (.send _ _ _)) timing => timing.waits.sum < timeoutCeiling
  | _, _ => True

/-- The waits of one request, each within the largest timeout. -/
structure Waits where
  durations : List Timestamp
  le_ceiling : ∀ d ∈ durations, d ≤ timeoutCeiling

/-- How the targets make a request wait is one of the given ways. -/
def ServedBy (served : Set Waits) : Clocked → ClockedAction → Prop
  | _, .act (.slot _ _ (.send _ _ _)) timing => ∃ waits ∈ served, timing.waits = waits.durations
  | _, _ => True

theorem brisk_of_servedBy {served : Set Waits} {s : Clocked} {a : ClockedAction}
    (h : ∀ waits ∈ served, waits.durations.sum < timeoutCeiling) (ha : ServedBy served s a) :
    Brisk s a := by
  cases a with
  | tick d => trivial
  | act a timing =>
    cases a with
    | slot w i sa =>
      cases sa with
      | send =>
        obtain ⟨waits, hwaits, he⟩ := ha
        rw [Brisk, he]
        exact h waits hwaits
      | _ => trivial
    | _ => trivial

/-- What the sweep promises a live worker: an entry is acknowledged before it counts as idle,
no sweep claims an entry a worker has in hand, and no request is sent for the copy of one. -/
def LeftAlone (s : Clocked) : ClockedAction → Prop
  | .act (.ack w _) _ => s.clock < (s.cycles w).consumedAt + defaultReclaimMinIdle
  | .act (.reclaim minIdle count now) _ =>
    ∀ e ∈ s.system.stream.stale minIdle count now, s.system.holds e.entryId = false
  | .act (.slot w i (.send _ _ _)) _ =>
    ∀ slot, s.system.slotAt? w i = some slot → slot.entry.entryId ∉ s.copies
  | _ => True

/-- How far a worker can be in its cycle at the given time. -/
def WorkerState.inTime (c : Cycle) (clock : Timestamp) : WorkerState → Prop
  | .idle => True
  | .gathering slots =>
    c.loading + c.writing ≤ overheadCeiling ∧
      clock < c.consumedAt + c.loading + timeoutCeiling ∧
      ∀ i slot v chain, slots[i]? = some slot → slot.phase = .executing v chain →
        (c.waits i).sum < timeoutCeiling
  | .writing _ =>
    c.loading + c.writing ≤ overheadCeiling ∧ clock ≤ c.gatheredAt + c.writing ∧
      c.gatheredAt < c.consumedAt + c.loading + timeoutCeiling
  | .acking _ =>
    c.loading + c.writing ≤ overheadCeiling ∧ clock ≤ c.gatheredAt + c.writing ∧
      c.gatheredAt < c.consumedAt + c.loading + timeoutCeiling

/-- A worker and the entries it has in hand, which nobody has claimed since its consume. -/
structure InHand (st : Stream) (clock : Timestamp) (c : Cycle) (x : WorkerState) : Prop where
  delivered : ∀ id ∈ x.entryIds, id < st.delivered
  consumed : ∀ p ∈ st.pending.rows, p.id ∈ x.entryIds → p.deliveredAt = c.consumedAt
  inTime : x.inTime c clock

structure Timely (s : Clocked) : Prop where
  workers : ∀ (w : WorkerId) (x : WorkerState), s.system.workers[w]? = some x →
    InHand s.system.stream s.clock (s.cycles w) x
  seized : s.seized = []
  copies : s.copies = []

/-! One worker. -/

theorem WorkerState.inTime_beforeAck {c : Cycle} {clock : Timestamp} {entryIds : List ℕ}
    (hover : c.loading + c.writing ≤ overheadCeiling) (hclock : clock ≤ c.gatheredAt + c.writing)
    (hgathered : c.gatheredAt < c.consumedAt + c.loading + timeoutCeiling) :
    (beforeAck entryIds).inTime c clock := by
  unfold beforeAck
  split
  · trivial
  · exact ⟨hover, hclock, hgathered⟩

theorem clock_lt_of_cycle {consumedAt gatheredAt loading writing clock : ℕ}
    (hover : loading + writing ≤ overheadCeiling) (hclock : clock ≤ gatheredAt + writing)
    (hgathered : gatheredAt < consumedAt + loading + timeoutCeiling) :
    clock < consumedAt + defaultReclaimMinIdle := by
  have hsum : overheadCeiling + timeoutCeiling = defaultReclaimMinIdle := rfl
  rw [← hsum]
  omega

theorem idle_lt {deliveredAt clock : ℕ} (h : clock < deliveredAt + defaultReclaimMinIdle) :
    clock - deliveredAt < defaultReclaimMinIdle := by
  have hpos : (0 : ℕ) < defaultReclaimMinIdle := by decide
  omega

/-- A cycle in time is shorter than the idle time of a stale entry. -/
theorem WorkerState.inTime.lt {c : Cycle} {clock : Timestamp} {x : WorkerState} {id : ℕ}
    (h : x.inTime c clock) (hid : id ∈ x.entryIds) :
    clock < c.consumedAt + defaultReclaimMinIdle := by
  cases x with
  | idle => cases hid
  | gathering slots =>
    obtain ⟨hover, hclock, -⟩ := h
    exact clock_lt_of_cycle hover (Nat.le_add_right _ _) hclock
  | writing b =>
    obtain ⟨hover, hclock, hgathered⟩ := h
    exact clock_lt_of_cycle hover hclock hgathered
  | acking entryIds =>
    obtain ⟨hover, hclock, hgathered⟩ := h
    exact clock_lt_of_cycle hover hclock hgathered

/-- What the other processes do to the stream is nothing to a worker that keeps its entries. -/
theorem InHand.of_stream {st st' : Stream} {clock : Timestamp} {c : Cycle} {x : WorkerState}
    (h : InHand st clock c x) (hd : st.delivered ≤ st'.delivered)
    (hp : ∀ p ∈ st'.pending.rows, p.id ∈ x.entryIds → p ∈ st.pending.rows) :
    InHand st' clock c x where
  delivered := fun id hid => (h.delivered id hid).trans_le hd
  consumed := fun p hpend hid => h.consumed p (hp p hpend hid) hid
  inTime := h.inTime

/-- A worker goes on in its cycle, with no new entry. -/
theorem InHand.goes_on {st : Stream} {clock clock' : Timestamp} {c c' : Cycle} {x y : WorkerState}
    (h : InHand st clock c x) (hsub : ∀ id ∈ y.entryIds, id ∈ x.entryIds)
    (hc : c'.consumedAt = c.consumedAt) (ht : y.inTime c' clock') : InHand st clock' c' y where
  delivered := fun id hid => h.delivered id (hsub id hid)
  consumed := fun p hp hid => (h.consumed p hp (hsub _ hid)).trans hc.symm
  inTime := ht

theorem inHand_idle (st : Stream) (clock : Timestamp) (c : Cycle) : InHand st clock c .idle where
  delivered := fun _ hid => absurd hid (List.not_mem_nil)
  consumed := fun _ _ hid => absurd hid (List.not_mem_nil)
  inTime := trivial

/-- What a worker has just taken off the stream. -/
theorem inHand_afterConsume {st : Stream} {clock : Timestamp} {timing : Timing} {w : WorkerId}
    {count : ℕ} (hover : timing.loading + timing.writing ≤ overheadCeiling) :
    InHand (st.consume (.worker w) count clock) clock
      { consumedAt := clock, gatheredAt := clock, loading := timing.loading,
        writing := timing.writing, sentAt := fun _ => clock, waits := fun _ => [] }
      (afterConsume (st.batch count)) where
  delivered := by
    intro id hid
    rw [entryIds_afterConsume] at hid
    obtain ⟨e, he, rfl⟩ := List.mem_map.1 hid
    exact (Stream.batch_bounds he).2
  consumed := by
    intro p hp hid
    rw [entryIds_afterConsume] at hid
    obtain ⟨e, he, hpid⟩ := List.mem_map.1 hid
    rcases List.mem_append.1 hp with hp | hp
    · have hlt := st.pending_lt p hp
      have hle := (Stream.batch_bounds he).1
      rw [hpid] at hle
      exact absurd hlt (Nat.not_lt_of_le hle)
    · obtain ⟨e', -, rfl⟩ := List.mem_map.1 hp
      rfl
  inTime := by
    unfold afterConsume
    split
    · trivial
    · have hpos : 0 < timeoutCeiling := by decide
      refine ⟨hover, (Nat.le_add_right _ _).trans_lt (Nat.lt_add_of_pos_right hpos), ?_⟩
      intro i slot v chain hi hph
      obtain ⟨e, -, rfl⟩ := List.mem_map.1 (List.mem_of_getElem? hi)
      cases hph

/-- As long as a worker may last, it is in time. -/
theorem WorkerState.inTime.of_mayLast {c : Cycle} {clock until_ : Timestamp} {x : WorkerState}
    (h : x.inTime c clock) (hlast : x.mayLast c until_) : x.inTime c until_ := by
  cases x with
  | idle => trivial
  | gathering slots =>
    obtain ⟨hover, -, hwaits⟩ := h
    refine ⟨hover, ?_, hwaits⟩
    simp only [WorkerState.mayLast, Bool.and_eq_true, List.any_eq_true, List.all_eq_true] at hlast
    -- an entry that has not returned is the one that bounds the time
    obtain ⟨⟨slot, hslot, hopen⟩, hall⟩ := hlast
    obtain ⟨i, hi⟩ := List.getElem?_of_mem hslot
    have hdue := hall (slot, i) (List.mem_zipIdx_iff_getElem?.2 hi)
    have hpos : 0 < timeoutCeiling := by decide
    cases hph : slot.phase with
    | delivered =>
      rw [hph] at hdue
      exact (of_decide_eq_true hdue).trans_lt (Nat.lt_add_of_pos_right hpos)
    | loaded v =>
      rw [hph] at hdue
      exact (of_decide_eq_true hdue).trans_lt (Nat.lt_add_of_pos_right hpos)
    | resolved v chain =>
      rw [hph] at hdue
      exact (of_decide_eq_true hdue).trans_lt (Nat.lt_add_of_pos_right hpos)
    | executing v chain =>
      rw [hph] at hdue
      have hsum := hwaits i slot v chain hi hph
      exact (of_decide_eq_true hdue).trans_lt (Nat.add_lt_add_left hsum _)
    | returned r => simp [Slot.result?, hph] at hopen
  | writing b =>
    obtain ⟨hover, -, hgathered⟩ := h
    exact ⟨hover, of_decide_eq_true hlast, hgathered⟩
  | acking entryIds =>
    obtain ⟨hover, -, hgathered⟩ := h
    exact ⟨hover, of_decide_eq_true hlast, hgathered⟩

/-! The platform. -/

section
variable {lib : Libraries} {rateLimiter : Bool} {s s' : Clocked} {system : System} {a : Action}
  {timing : Timing}

theorem Timely.holds_of_stale (h : Timely s) {count : ℕ} {e : StreamEntry}
    (he : e ∈ s.system.stream.stale defaultReclaimMinIdle count s.clock) :
    s.system.holds e.entryId = false := by
  obtain ⟨p, hp, rfl⟩ := List.mem_map.1 he
  obtain ⟨hp, hidle⟩ := List.mem_filter.1 (List.mem_of_mem_take hp)
  have hidle : defaultReclaimMinIdle ≤ s.clock - p.deliveredAt := of_decide_eq_true hidle
  rw [System.holds, List.any_eq_false]
  intro x hx hid
  have hid : p.id ∈ x.entryIds := of_decide_eq_true hid
  obtain ⟨w, hw⟩ := List.getElem?_of_mem hx
  have hin := h.workers w x hw
  have hlt := hin.inTime.lt hid
  rw [← hin.consumed p hp hid] at hlt
  exact absurd hidle (Nat.not_le_of_lt (idle_lt hlt))

/-- Every worker but one, after a step that gives none of them an entry or takes one away. -/
theorem Timely.workers_set (h : Timely s) {st : Stream} {cycles : WorkerId → Cycle}
    {w : WorkerId} {y : WorkerState} (hd : s.system.stream.delivered ≤ st.delivered)
    (hp : ∀ p ∈ st.pending.rows, p.id < s.system.stream.delivered →
      p ∈ s.system.stream.pending.rows)
    (hcycles : ∀ v, v ≠ w → cycles v = s.cycles v) (hy : InHand st s.clock (cycles w) y) :
    ∀ (v : WorkerId) (x : WorkerState), (s.system.workers.set w y)[v]? = some x →
      InHand st s.clock (cycles v) x := by
  intro v x hx
  rcases getElem?_set_cases hx with ⟨rfl, rfl⟩ | ⟨hv, hx⟩
  · exact hy
  · rw [hcycles v hv]
    have hin := h.workers v x hx
    exact hin.of_stream hd fun p hpend hid => hp p hpend (hin.delivered _ hid)

/-- The workers stay as they are, and so do the entries they have in hand. -/
theorem Timely.of_workers (h : Timely s) {st : Stream} {clock : Timestamp}
    (hclock : clock = s.clock) (hd : s.system.stream.delivered ≤ st.delivered)
    (hp : ∀ p ∈ st.pending.rows, s.system.holds p.id → p ∈ s.system.stream.pending.rows) :
    ∀ (v : WorkerId) (x : WorkerState), s.system.workers[v]? = some x →
      InHand st clock (s.cycles v) x := by
  intro v x hx
  subst hclock
  refine (h.workers v x hx).of_stream hd fun p hpend hid => hp p hpend ?_
  rw [System.holds, List.any_eq_true]
  exact ⟨x, List.mem_of_getElem? hx, decide_eq_true hid⟩

/-- A step of one attempt: only a send begins a wait, and a brisk one is over in time. -/
theorem Timely.slot (h : Timely s) {w : WorkerId} {i : ℕ} {sa : SlotAction} {slots : List Slot}
    {slot : Slot} {e : SlotEffect} (hb : Brisk s (.act (.slot w i sa) timing))
    (hw : s.system.workers[w]? = some (.gathering slots)) (hi : slots[i]? = some slot)
    (hm : SlotMove lib rateLimiter w s.system.stores slot sa e) :
    InHand s.system.stream s.clock (s.cyclesAfter timing (.slot w i sa) w)
      (.gathering (slots.set i { slot with phase := e.phase })) := by
  have hin := h.workers w _ hw
  obtain ⟨hover, hclock, hwaits⟩ := hin.inTime
  have hids : ∀ id ∈ (WorkerState.gathering (slots.set i { slot with phase := e.phase })).entryIds,
      id ∈ (WorkerState.gathering slots).entryIds := by
    intro id hid
    rwa [WorkerState.entryIds, entryIds_set_slot hi] at hid
  -- the other attempts of the batch go on as they were
  have hrest : ∀ j slot' v chain, j ≠ i →
      (slots.set i { slot with phase := e.phase })[j]? = some slot' →
      slot'.phase = .executing v chain → ((s.cycles w).waits j).sum < timeoutCeiling := by
    intro j slot' v chain hj hslot' hph
    rw [List.getElem?_set_ne hj.symm] at hslot'
    exact hwaits j slot' v chain hslot' hph
  have hquiet : (∀ v chain, e.phase ≠ .executing v chain) →
      InHand s.system.stream s.clock (s.cycles w)
        (.gathering (slots.set i { slot with phase := e.phase })) := by
    intro hnot
    refine hin.goes_on hids rfl ⟨hover, hclock, ?_⟩
    intro j slot' v chain hslot' hph
    rcases getElem?_set_cases hslot' with ⟨-, rfl⟩ | ⟨hj, -⟩
    · exact absurd hph (hnot v chain)
    · exact hrest j slot' v chain hj hslot' hph
  have hsend : ∀ allowed now call, sa = .send allowed now call →
      InHand s.system.stream s.clock (s.cyclesAfter timing (.slot w i sa) w)
        (.gathering (slots.set i { slot with phase := e.phase })) := by
    rintro allowed now call rfl
    simp only [Clocked.cyclesAfter, Function.update_self]
    refine hin.goes_on hids rfl ⟨hover, hclock, ?_⟩
    intro j slot' v chain hslot' hph
    dsimp only
    by_cases hj : j = i
    · rw [hj, Function.update_self]
      exact hb
    · rw [Function.update_of_ne hj]
      exact hrest j slot' v chain hj hslot' hph
  cases hm with
  | load => exact hquiet (by simp)
  | missing => exact hquiet (by simp)
  | readContext => exact hquiet (by simp)
  | refused => exact hsend _ _ _ rfl
  | sent => exact hsend _ _ _ rfl
  | judged => exact hquiet (by simp)
  | unjudged => exact hquiet (by simp)
  | callRaised => exact hquiet (by simp)

/-- Once `gather` is through, the margin for the write and the ack begins. -/
theorem Timely.gather (h : Timely s) {w : WorkerId} {slots : List Slot}
    (hw : s.system.workers[w]? = some (.gathering slots)) :
    InHand s.system.stream s.clock { s.cycles w with gatheredAt := s.clock }
      (afterGather (collect (slots.filterMap Slot.result?))) := by
  have hin := h.workers w _ hw
  obtain ⟨hover, hclock, -⟩ := hin.inTime
  refine hin.goes_on ?_ rfl ?_
  · intro id hid
    obtain ⟨slot, hslot, rfl, -⟩ := exists_slot_of_mem_gathered (mem_entryIds_afterGather hid)
    exact List.mem_map_of_mem hslot
  · unfold afterGather
    split
    · exact WorkerState.inTime_beforeAck hover (Nat.le_add_right _ _) hclock
    · exact ⟨hover, Nat.le_add_right _ _, hclock⟩

theorem Timely.write (h : Timely s) {w : WorkerId} {b : Batch} {result : Except Exn Unit}
    (hw : s.system.workers[w]? = some (.writing b)) :
    InHand s.system.stream s.clock (s.cycles w) (afterWrite result b.entryIdsToAck) := by
  have hin := h.workers w _ hw
  obtain ⟨hover, hclock, hgathered⟩ := hin.inTime
  refine hin.goes_on (fun id hid => mem_entryIds_afterWrite hid) rfl ?_
  cases result with
  | error e => trivial
  | ok u => exact WorkerState.inTime_beforeAck hover hclock hgathered

theorem mem_pending_of_runAck {st : Stream} {entryIds : List ℕ} {call : Call} {p : Pending}
    (hp : p ∈ (runAck entryIds call st).2.pending.rows) : p ∈ st.pending.rows := by
  unfold runAck at hp
  dsimp only at hp
  split at hp
  · exact (Table.mem_filter.1 hp).1
  · exact hp

theorem delivered_runAck (st : Stream) (entryIds : List ℕ) (call : Call) :
    (runAck entryIds call st).2.delivered = st.delivered := by
  unfold runAck
  dsimp only
  split <;> rfl

theorem pending_enqueue_ite {c : Prop} [Decidable c] (st : Stream) (t : UUID) :
    (if c then st.enqueue t else st).pending = st.pending := by
  split <;> rfl

theorem delivered_enqueue_ite {c : Prop} [Decidable c] (st : Stream) (t : UUID) :
    (if c then st.enqueue t else st).delivered = st.delivered := by
  split <;> rfl

/-- A claim of entries that nobody has in hand leaves the others as they are. -/
theorem Timely.claimStale (h : Timely s) {count : ℕ} {p : Pending}
    (hp : p ∈ (s.system.stream.claimStale .reclaimer defaultReclaimMinIdle count s.clock).pending.rows)
    (hid : s.system.holds p.id) : p ∈ s.system.stream.pending.rows := by
  obtain ⟨q, hq, rfl⟩ := List.mem_map.1 hp
  split at hid
  · rename_i hstale
    rw [Pending.id, h.holds_of_stale hstale] at hid
    cases hid
  · rename_i hstale
    rwa [if_neg hstale]

theorem Timely.seizedBy (h : Timely s) (hnow : a.now?.all (· = s.clock))
    (hperm : s.permits timing a) : s.seizedBy a = [] := by
  cases a with
  | reclaim minIdle count now =>
    obtain rfl : now = s.clock := of_decide_eq_true hnow
    obtain rfl : minIdle = defaultReclaimMinIdle := of_decide_eq_true hperm
    refine List.filter_eq_nil_iff.2 fun id hid => ?_
    obtain ⟨e, he, rfl⟩ := List.mem_map.1 hid
    simp [h.holds_of_stale he]
  | _ => rfl

theorem Timely.copiesBy (h : Timely s) (a : Action) : s.copiesBy a = [] := by
  cases a with
  | reclaimEnqueue call =>
    unfold Clocked.copiesBy
    dsimp only
    split
    · simp [h.seized, h.copies]
    · rfl
  | _ => rfl

theorem Timely.act (h : Timely s) (hnow : a.now?.all (· = s.clock)) (hperm : s.permits timing a)
    (hb : Brisk s (.act a timing)) (hm : Move lib rateLimiter s.system a system) :
    Timely
      { system
        clock := s.clock
        cycles := s.cyclesAfter timing a
        seized := s.seized ++ s.seizedBy a
        copies := s.copies ++ s.copiesBy a } := by
  refine ⟨?_, by simp [h.seized, h.seizedBy hnow hperm], by simp [h.copies, h.copiesBy]⟩
  cases hm with
  | @consume w count now hw =>
    obtain rfl : now = s.clock := of_decide_eq_true hnow
    refine h.workers_set (Nat.le_add_right _ _) ?_ (fun v hv => Function.update_of_ne hv _ _) ?_
    · intro p hp hlt
      rcases List.mem_append.1 hp with hp | hp
      · exact hp
      · obtain ⟨e, he, rfl⟩ := List.mem_map.1 hp
        exact absurd hlt (Nat.not_lt_of_le (Stream.batch_bounds he).1)
    · simp only [Clocked.cyclesAfter, Function.update_self]
      exact inHand_afterConsume (of_decide_eq_true hperm)
  | @slot w i sa slots slot e hw hi hmove =>
    refine h.workers_set le_rfl (fun p hp _ => hp) ?_ (h.slot hb hw hi hmove)
    intro v hv
    cases sa with
    | send => exact Function.update_of_ne hv _ _
    | _ => rfl
  | @gather w slots hw =>
    refine h.workers_set le_rfl (fun p hp _ => hp) (fun v hv => Function.update_of_ne hv _ _) ?_
    simp only [Clocked.cyclesAfter, Function.update_self]
    exact h.gather hw
  | write hw => exact h.workers_set le_rfl (fun p hp _ => hp) (fun _ _ => rfl) (h.write hw)
  | ack hw =>
    exact h.workers_set (delivered_runAck _ _ _).ge (fun p hp _ => mem_pending_of_runAck hp)
      (fun _ _ => rfl) (inHand_idle _ _ _)
  | crash hw => exact h.workers_set le_rfl (fun p hp _ => hp) (fun _ _ => rfl) (inHand_idle _ _ _)
  | retryRange => exact h.of_workers rfl le_rfl fun p hp _ => hp
  | retryRemove => exact h.of_workers rfl le_rfl fun p hp _ => hp
  | retryEnqueue =>
    refine h.of_workers rfl (delivered_enqueue_ite _ _).ge fun p hp _ => ?_
    rwa [pending_enqueue_ite] at hp
  | retryReschedule => exact h.of_workers rfl le_rfl fun p hp _ => hp
  | reclaim =>
    obtain rfl := of_decide_eq_true hnow
    obtain rfl := of_decide_eq_true hperm
    exact h.of_workers rfl le_rfl fun p hp hid => h.claimStale hp hid
  | reclaimEnqueue =>
    refine h.of_workers rfl (delivered_enqueue_ite _ _).ge fun p hp _ => ?_
    rwa [pending_enqueue_ite] at hp
  | reclaimAck =>
    exact h.of_workers rfl (delivered_runAck _ _ _).ge fun p hp _ => mem_pending_of_runAck hp

theorem clockedAct_of_step (h : clockedStep lib rateLimiter s (.act a timing) = some s') :
    a.now?.all (· = s.clock) ∧ s.permits timing a ∧
      ∃ system, step lib rateLimiter s.system a = some system ∧
        s' =
          { system
            clock := s.clock
            cycles := s.cyclesAfter timing a
            seized := s.seized ++ s.seizedBy a
            copies := s.copies ++ s.copiesBy a } := by
  simp only [clockedStep] at h
  split at h
  · rename_i hguard
    obtain ⟨system, hsystem, rfl⟩ := Option.map_eq_some_iff.1 h
    exact ⟨hguard.1, hguard.2, system, hsystem, rfl⟩
  · cases h

/-- Time passes only as far as every worker is in time. -/
theorem Timely.tick (h : Timely s) {d : Timestamp}
    (hstep : clockedStep lib rateLimiter s (.tick d) = some s') : Timely s' := by
  simp only [clockedStep] at hstep
  split at hstep
  · rename_i hpass
    cases hstep
    refine ⟨fun w x hx => ?_, h.seized, h.copies⟩
    have hin := h.workers w x hx
    have hlast := List.all_eq_true.1 hpass (x, w) (List.mem_zipIdx_iff_getElem?.2 hx)
    exact hin.goes_on (fun _ hid => hid) rfl (hin.inTime.of_mayLast hlast)
  · cases hstep

theorem Timely.step (h : Timely s) {a : ClockedAction} (hb : Brisk s a)
    (hstep : clockedStep lib rateLimiter s a = some s') : Timely s' := by
  cases a with
  | tick d => exact h.tick hstep
  | act a timing =>
    obtain ⟨hnow, hperm, system, hsystem, rfl⟩ := clockedAct_of_step hstep
    exact h.act hnow hperm hb (move_of_step hsystem)

/-- A worker in time is left alone. -/
theorem Timely.leftAlone (h : Timely s) {a : ClockedAction}
    (hstep : clockedStep lib rateLimiter s a = some s') : LeftAlone s a := by
  cases a with
  | tick d => trivial
  | act a timing =>
    obtain ⟨hnow, hperm, system, hsystem, -⟩ := clockedAct_of_step hstep
    cases move_of_step hsystem with
    | @ack w call entryIds hw =>
      obtain ⟨hover, hclock, hgathered⟩ := (h.workers w _ hw).inTime
      exact clock_lt_of_cycle hover hclock hgathered
    | @reclaim minIdle count now =>
      obtain rfl : now = s.clock := of_decide_eq_true hnow
      obtain rfl : minIdle = defaultReclaimMinIdle := of_decide_eq_true hperm
      exact fun e he => h.holds_of_stale he
    | @slot w i sa =>
      cases sa with
      | send =>
        intro slot _ hcopy
        rw [h.copies] at hcopy
        cases hcopy
      | _ => trivial
    | _ => trivial

theorem Fresh.timely {s₀ : System} (h : Fresh s₀) (clock : Timestamp) : Timely (s₀.clocked clock) where
  workers := by
    intro w x hx
    obtain rfl := h.idle x (List.mem_of_getElem? hx)
    exact inHand_idle _ _ _
  seized := rfl
  copies := rfl

theorem leftAlone_of_brisk {s₀ : System} {clock : Timestamp} {as : List ClockedAction}
    (h₀ : Fresh s₀) (hr : Run (clockedStep lib rateLimiter) (s₀.clocked clock) as s)
    (hb : Each (clockedStep lib rateLimiter) Brisk (s₀.clocked clock) as) :
    Each (clockedStep lib rateLimiter) LeftAlone (s₀.clocked clock) as := by
  refine hr.each hb (h₀.timely clock) ?_ ?_
  · intro s a s' hi hb hstep
    exact hi.step hb hstep
  · intro s a s' hi _ hstep
    exact hi.leftAlone hstep

end

/-! A platform of one task with the largest timeout, and two workers. -/

def slowRequest : ApiRequest := { plainRequest 0 with timeoutMs := 300000 }

def slowRun : Database := { plainRun 1 3 with apiRequests := ⟨[slowRequest], by simp⟩ }

theorem launchable_slowRun : Launchable slowRun where
  waiting := (launchable_plainRun (by decide) 3).waiting
  parents := by
    intro t ht
    obtain rfl := List.mem_singleton.1 ht
    exact ⟨rfl, rfl⟩
  running := (launchable_plainRun (by decide) 3).running
  noResult := rfl

def slowTask : System := launch slowRun 2

theorem fresh_slowTask : Fresh slowTask := fresh_launch launchable_slowRun 2

theorem timeoutsInRange_slowTask : slowTask.TimeoutsInRange := by
  intro r hr
  obtain rfl := List.mem_singleton.1 hr
  exact ⟨by decide, by decide⟩

/-- An action with no part in the timing of a cycle. -/
def untimed (a : Action) : ClockedAction := .act a .none

abbrev clockedPlainStep : Clocked → ClockedAction → Option Clocked := clockedStep plainLibraries false

theorem clockedStep_tick {s : Clocked} {d : Timestamp} (h : s.mayPass (s.clock + d)) :
    clockedPlainStep s (.tick d) = some { s with clock := s.clock + d } := if_pos h

theorem exists_plainAct {system : System} (s : Clocked) (a : Action) (timing : Timing)
    (hnow : a.now?.all (· = s.clock)) (hperm : s.permits timing a)
    (hstep : plainStep s.system a = some system) :
    ∃ s', clockedPlainStep s (.act a timing) = some s' ∧ s'.system = system ∧
      s'.clock = s.clock ∧ s'.cycles = s.cyclesAfter timing a := by
  refine ⟨_, (if_pos ⟨hnow, hperm⟩).trans (congrArg (Option.map _) hstep), rfl, rfl, rfl⟩

/-- The first worker takes the task, up to its request. -/
def begun (overhead : Timestamp) : List ClockedAction :=
  [.act (.consume 0 1 0) ⟨0, overhead, []⟩, untimed (.slot 0 0 .load),
    untimed (.slot 0 0 (.readContext 0))]

/-- The request is over after the waits; a sweep comes when the write is about to end. -/
def sweptInWrite (waits : List Timestamp) : List ClockedAction :=
  begun overheadCeiling ++
    [.act (.slot 0 0 (.send true 0 .ok)) ⟨0, 0, waits⟩, .tick waits.sum,
      untimed (.slot 0 0 (.settle okReply waits.sum .ok .ok)), untimed (.gather 0),
      .tick overheadCeiling]

/-- The request on its way, and the write after it. -/
def onItsWay : System :=
  final plainStep slowTask [.consume 0 1 0, .slot 0 0 .load, .slot 0 0 (.readContext 0),
    .slot 0 0 (.send true 0 .ok)]

theorem workers_onItsWay : ∃ v chain, onItsWay.workers = [.gathering [⟨⟨0, 0⟩, .executing v chain⟩], .idle] :=
  ⟨_, _, rfl⟩

theorem settle_onItsWay (now : Timestamp) : ∃ system b,
    exec plainStep onItsWay [.slot 0 0 (.settle okReply now .ok .ok), .gather 0] = some system ∧
      system.workers = [.writing b, .idle] ∧ b.entryIdsToAck = [0] ∧
      system.stream = onItsWay.stream ∧ system.reclaimSweeper = .claimed [] :=
  ⟨_, _, rfl, rfl, rfl, rfl, rfl⟩

theorem run_begun : ∃ s, Run clockedPlainStep (slowTask.clocked 0) (begun overheadCeiling) s ∧
    exec plainStep s.system [.slot 0 0 (.send true 0 .ok)] = some onItsWay ∧ s.clock = 0 ∧
    (s.cycles 0).consumedAt = 0 ∧ (s.cycles 0).loading = 0 ∧
    (s.cycles 0).writing = overheadCeiling ∧
    ∃ slot v chain, s.system.slotAt? 0 0 = some slot ∧ slot.phase = .resolved v chain ∧
      (v.requests chain).isEmpty = false ∧ v.apiRequest.timeoutMs * 1000 = timeoutCeiling :=
  ⟨_, run_final _ rfl, rfl, rfl, rfl, rfl, rfl, _, _, _, rfl, rfl, rfl, rfl⟩

theorem holds_sweptInWrite {waits : List Timestamp} (hwaits : ∀ d ∈ waits, d ≤ timeoutCeiling) :
    ∃ s, Run clockedPlainStep (slowTask.clocked 0) (sweptInWrite waits) s ∧
      s.clock = waits.sum + overheadCeiling ∧ s.system.holds 0 ∧
      s.system.reclaimSweeper = .claimed [] ∧ ∃ p ∈ s.system.stream.pending.rows, p.entry = ⟨0, 0⟩ ∧ p.deliveredAt = 0 := by
  obtain ⟨s, hbegun, hsend, hclock, hconsumed, hloading, hwriting, slot, v, chain, hslot, hphase,
    hrequest, htimeout⟩ := run_begun
  obtain ⟨s₁, hs₁, hsystem₁, hclock₁, hcycles₁⟩ := exists_plainAct s
    (.slot 0 0 (.send true 0 .ok)) ⟨0, 0, waits⟩ (by simp [Action.now?, hclock])
    (by simpa [Clocked.permits, hslot, hphase, hrequest, htimeout] using hwaits)
    (by simpa [exec] using hsend)
  obtain ⟨v, chain, hworkers⟩ := workers_onItsWay
  have hcycle₁ : s₁.cycles 0 =
      { s.cycles 0 with
        sentAt := Function.update (s.cycles 0).sentAt 0 s.clock
        waits := Function.update (s.cycles 0).waits 0 waits } := by
    rw [hcycles₁, Clocked.cyclesAfter, Function.update_self]
  have hwait : s₁.mayPass (s₁.clock + waits.sum) := by
    simp [Clocked.mayPass, hsystem₁, hworkers, WorkerState.mayLast, Slot.result?, Cycle.due, hclock₁,
      hclock, hcycle₁, hconsumed, hloading]
  obtain ⟨system, b, hexec, hwrite, hids, hstream, hsweeper⟩ := settle_onItsWay waits.sum
  obtain ⟨settled, hsettle, hexec⟩ := Option.bind_eq_some_iff.1 hexec
  obtain ⟨gathered, hgather, hexec⟩ := Option.bind_eq_some_iff.1 hexec
  cases hexec
  obtain ⟨s₂, hs₂, hsystem₂, hclock₂, hcycles₂⟩ := exists_plainAct
    { s₁ with clock := s₁.clock + waits.sum } (.slot 0 0 (.settle okReply waits.sum .ok .ok)) .none
    (by simp [Action.now?, hclock₁, hclock])
    (by simp [Clocked.permits, hcycle₁, hclock₁, hclock])
    (hsystem₁ ▸ hsettle)
  obtain ⟨s₃, hs₃, hsystem₃, hclock₃, hcycles₃⟩ := exists_plainAct s₂ (.gather 0) .none rfl rfl
    (hsystem₂ ▸ hgather)
  have hcycle₃ : s₃.cycles 0 = { s₂.cycles 0 with gatheredAt := s₂.clock } := by
    rw [hcycles₃, Clocked.cyclesAfter, Function.update_self]
  have hover : s₃.mayPass (s₃.clock + overheadCeiling) := by
    simp [Clocked.mayPass, hsystem₃, hwrite, WorkerState.mayLast, hclock₃, hcycle₃, hcycles₂,
      Clocked.cyclesAfter, hcycle₁, hwriting]
  refine ⟨_, .snoc (.snoc (.snoc (.snoc (.snoc hbegun hs₁) (clockedStep_tick hwait)) hs₂) hs₃)
    (clockedStep_tick hover), ?_, ?_, ?_, ?_⟩
  · simp [hclock₃, hclock₂, hclock₁, hclock]
  · simp [System.holds, hsystem₃, hwrite, WorkerState.entryIds, hids]
  · simp only [hsystem₃, hsweeper]
  · simp only [hsystem₃, hstream]
    exact ⟨_, List.mem_singleton_self _, rfl, rfl⟩

theorem not_leftAlone_sweptInWrite (waits : Waits)
    (hsum : timeoutCeiling ≤ waits.durations.sum) :
    ∃ s a, Run clockedPlainStep (slowTask.clocked 0) (sweptInWrite waits.durations ++ [a]) s ∧
      (∀ served : Set Waits, waits ∈ served →
        Each clockedPlainStep (ServedBy served) (slowTask.clocked 0)
          (sweptInWrite waits.durations ++ [a])) ∧
      ¬ Each clockedPlainStep LeftAlone (slowTask.clocked 0) (sweptInWrite waits.durations ++ [a]) := by
  obtain ⟨s, hr, hclock, hholds, hsweeper, p, hp, hentry, hdelivered⟩ :=
    holds_sweptInWrite waits.le_ceiling
  -- by now the entry has been idle for long enough
  have hidle : defaultReclaimMinIdle ≤ s.clock - p.deliveredAt := by
    rw [hclock, hdelivered, Nat.sub_zero]
    exact Nat.add_le_add_right hsum overheadCeiling
  have hstale : ⟨0, 0⟩ ∈ s.system.stream.stale defaultReclaimMinIdle s.system.stream.pending.rows.length
      s.clock := by
    refine List.mem_map.2 ⟨p, ?_, hentry⟩
    rw [List.take_of_length_le (List.length_filter_le _ _)]
    exact List.mem_filter.2 ⟨hp, decide_eq_true hidle⟩
  obtain ⟨s', hs', -⟩ := exists_plainAct s
    (.reclaim defaultReclaimMinIdle s.system.stream.pending.rows.length s.clock) .none
    (by simp [Action.now?]) (by simp [Clocked.permits]) (by rw [plainStep, step, hsweeper])
  refine ⟨s', _, .snoc hr hs', ?_, ?_⟩
  · intro served hserved
    refine each_of_mem fun a ha u => ?_
    simp only [sweptInWrite, begun, untimed, List.cons_append, List.nil_append, List.mem_cons,
      List.not_mem_nil, or_false] at ha
    rcases ha with rfl | rfl | rfl | rfl | rfl | rfl | rfl | rfl | rfl
    case inr.inr.inr.inl => exact ⟨waits, hserved, rfl⟩
    all_goals trivial
  · intro h
    have hleft := ((each_snoc_iff hr).1 h).2 ⟨0, 0⟩ hstale
    rw [hholds] at hleft
    cases hleft

/-- For every way the targets make requests wait, each wait within the timeout: the sweep leaves
every live worker alone, in every run of every platform, exactly where no request is kept
waiting as long as the largest timeout in all. -/
theorem live_entries_left_alone_iff (served : Set Waits) :
    (∀ (lib : Libraries) (rateLimiter : Bool) (s₀ : System) (clock : Timestamp)
      (as : List ClockedAction) (s : Clocked), Fresh s₀ → s₀.TimeoutsInRange →
      Run (clockedStep lib rateLimiter) (s₀.clocked clock) as s →
      Each (clockedStep lib rateLimiter) (ServedBy served) (s₀.clocked clock) as →
      Each (clockedStep lib rateLimiter) LeftAlone (s₀.clocked clock) as) ↔
    ∀ waits ∈ served, waits.durations.sum < timeoutCeiling := by
  constructor
  · intro h waits hwaits
    by_contra hsum
    obtain ⟨s, a, hr, hserved, hnot⟩ := not_leftAlone_sweptInWrite waits (Nat.le_of_not_lt hsum)
    exact hnot (h _ _ _ _ _ s fresh_slowTask timeoutsInRange_slowTask hr (hserved served hwaits))
  · intro h lib rateLimiter s₀ clock as s hfresh _ hr hserved
    exact leftAlone_of_brisk hfresh hr (hserved.mono fun u a ha => brisk_of_servedBy h ha)

/-- A body that comes in two parts, each 200 seconds after the last thing the target sent. -/
def slowBody : List Timestamp := [200 * 1000000, 200 * 1000000]

/-- A sweep claims the entry while its request is under way, and the second worker sends the
request again. -/
def sweptInFlight : List ClockedAction :=
  begun 0 ++
    [.act (.slot 0 0 (.send true 0 .ok)) ⟨0, 0, slowBody⟩, .tick defaultReclaimMinIdle,
      untimed (.reclaim defaultReclaimMinIdle 50 defaultReclaimMinIdle),
      untimed (.reclaimEnqueue .ok), untimed (.reclaimAck .ok),
      untimed (.consume 1 1 defaultReclaimMinIdle), untimed (.slot 1 0 .load),
      untimed (.slot 1 0 (.readContext defaultReclaimMinIdle)),
      .act (.slot 1 0 (.send true defaultReclaimMinIdle .ok)) ⟨0, 0, slowBody⟩]

/-- Each wait is within the timeout, no process has died, and the request is sent twice. -/
theorem not_live_entries_left_alone_sweptInFlight :
    Fresh slowTask ∧ slowTask.TimeoutsInRange ∧
      Run clockedPlainStep (slowTask.clocked 0) sweptInFlight
        (final clockedPlainStep (slowTask.clocked 0) sweptInFlight) ∧
      ¬ Each clockedPlainStep LeftAlone (slowTask.clocked 0) sweptInFlight ∧
      ∃ request, (final clockedPlainStep (slowTask.clocked 0) sweptInFlight).system.sent =
        [request, request] := by
  refine ⟨fresh_slowTask, timeoutsInRange_slowTask, run_final _ rfl, ?_, _, rfl⟩
  intro h
  have hr : Run clockedPlainStep (slowTask.clocked 0) (sweptInFlight.take 5)
      (final clockedPlainStep (slowTask.clocked 0) (sweptInFlight.take 5)) := run_final _ rfl
  have hleft := h (sweptInFlight.take 5) _ _ ⟨sweptInFlight.drop 6, rfl⟩ hr
  exact Bool.noConfusion (hleft ⟨0, 0⟩ (List.mem_singleton_self _))

end ApiTesting
