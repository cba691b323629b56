import ApiTesting.Spec.System

/-! What a step can do, said once: one constructor for every branch of `slotStep`
and of `step`, with its guards and the state it leads to. Every invariant of the
platform is a case analysis of these. -/

namespace ApiTesting

open Keyed

section
variable (lib : Libraries) (rateLimiter : Bool)

/-- The moves of one attempt. -/
inductive SlotMove (w : WorkerId) (st : Stores) (slot : Slot) : SlotAction → SlotEffect → Prop
  | load {v : TaskView} : slot.phase = .delivered → loadTask st.db slot.entry.taskId = .ok v →
      SlotMove w st slot .load ⟨.loaded v, st, [], []⟩
  | missing {e : Exn} : slot.phase = .delivered →
      loadTask st.db slot.entry.taskId = .error e →
      SlotMove w st slot .load ⟨.returned (.error e), st, [], []⟩
  | readContext {v : TaskView} {now : Timestamp} : slot.phase = .loaded v →
      SlotMove w st slot (.readContext now) ⟨.resolved v (v.chainContext now st.contexts), st, [], []⟩
  | refused {v : TaskView} {chain : Dict String String} {allowed : Bool} {now : Timestamp}
      {call : Call} {e : Exn} {st' : Stores} : slot.phase = .resolved v chain →
      passRateLimit lib rateLimiter v chain allowed now call st = (.error e, st') →
      SlotMove w st slot (.send allowed now call) ⟨.returned (.error e), st', [], []⟩
  | sent {v : TaskView} {chain : Dict String String} {allowed : Bool} {now : Timestamp}
      {call : Call} {st' : Stores} : slot.phase = .resolved v chain →
      passRateLimit lib rateLimiter v chain allowed now call st = (.ok (), st') →
      SlotMove w st slot (.send allowed now call) ⟨.executing v chain, st', v.requests chain, []⟩
  | judged {v : TaskView} {chain : Dict String String}
      {reply : HttpReply} {now : Timestamp} {call expireCall : Call} {write : RedisWrite}
      {o : TaskOutcome} : slot.phase = .executing v chain →
      judgeReply lib w v chain reply now st.db = .ok (write, o) →
      SlotMove w st slot (.settle reply now call expireCall)
        ⟨.returned ((st.perform v write now call expireCall).1.map fun _ => o),
          (st.perform v write now call expireCall).2, [],
          match write with
          | .merge vars => if call.tookEffect then [(v.testTask.id, vars)] else []
          | _ => []⟩
  | unjudged {v : TaskView} {chain : Dict String String}
      {reply : HttpReply} {now : Timestamp} {call expireCall : Call} {e : Exn} :
      slot.phase = .executing v chain →
      judgeReply lib w v chain reply now st.db = .error e →
      SlotMove w st slot (.settle reply now call expireCall) ⟨.returned (.error e), st, [], []⟩
  | callRaised : (∀ r, slot.phase ≠ .returned r) →
      SlotMove w st slot .callRaised ⟨.returned (.error callError), st, [], []⟩

variable {lib rateLimiter}

theorem settleTask_of_ok {w : WorkerId} {v : TaskView} {chain : Dict String String}
    {reply : HttpReply} {now : Timestamp}
    {call expireCall : Call} {st : Stores} {write : RedisWrite} {o : TaskOutcome}
    (h : judgeReply lib w v chain reply now st.db = .ok (write, o)) :
    settleTask lib w v chain reply now call expireCall st =
      ((st.perform v write now call expireCall).1.map fun _ => o,
        (st.perform v write now call expireCall).2) := by
  simp only [settleTask, h]
  rcases st.perform v write now call expireCall with ⟨_ | u, st'⟩ <;> rfl

theorem slotMove_of_slotStep {w : WorkerId} {st : Stores} {slot : Slot} {a : SlotAction}
    {e : SlotEffect} (h : slotStep lib rateLimiter w st slot a = some e) :
    SlotMove lib rateLimiter w st slot a e := by
  unfold slotStep at h
  split at h
  · rename_i hph
    split at h <;> rename_i hload <;> cases h
    · exact .load hph hload
    · exact .missing hph hload
  · rename_i hph
    cases h
    exact .readContext hph
  · rename_i hph
    split at h
    · rename_i hpass
      cases h
      exact .refused hph hpass
    · rename_i hpass
      cases h
      exact .sent hph hpass
  · rename_i reply now _ _ v chain hph
    rcases hj : judgeReply lib w v chain reply now st.db with err | ⟨write, o⟩
    · simp only [hj, settleTask, Option.some.injEq] at h
      subst h
      exact .unjudged hph hj
    · rw [settleTask_of_ok hj] at h
      simp only [hj, Option.some.injEq] at h
      subst h
      cases write <;> exact .judged hph hj
  · cases h
  · rename_i hph
    cases h
    exact .callRaised hph
  · cases h

variable (lib rateLimiter)

/-- The moves of the platform. -/
inductive Move (s : System) : Action → System → Prop
  | consume {w : WorkerId} {count : ℕ} {now : Timestamp} : s.workers[w]? = some .idle →
      Move s (.consume w count now)
        { s with
          stream := s.stream.consume (.worker w) count now
          workers := s.workers.set w (afterConsume (s.stream.batch count)) }
  | slot {w : WorkerId} {i : ℕ} {a : SlotAction} {slots : List Slot} {slot : Slot}
      {e : SlotEffect} : s.workers[w]? = some (.gathering slots) → slots[i]? = some slot →
      SlotMove lib rateLimiter w s.stores slot a e →
      Move s (.slot w i a)
        { s with
          stores := e.stores
          sent := s.sent ++ e.sent
          published := s.published ++ e.published
          workers := s.workers.set w (.gathering (slots.set i { slot with phase := e.phase })) }
  | gather {w : WorkerId} {slots : List Slot} : s.workers[w]? = some (.gathering slots) →
      (∀ slot ∈ slots, slot.result?.isSome) →
      Move s (.gather w)
        { s with workers := s.workers.set w (afterGather (collect (slots.filterMap Slot.result?))) }
  | write {w : WorkerId} {now : Timestamp} {call : Call} {b : Batch} :
      s.workers[w]? = some (.writing b) →
      Move s (.write w now call)
        { s with
          stores := { s.stores with db := (runWrite b.outcomes now call s.stores.db).2 }
          workers := s.workers.set w
            (afterWrite (runWrite b.outcomes now call s.stores.db).1 b.entryIdsToAck) }
  | ack {w : WorkerId} {call : Call} {entryIds : List ℕ} :
      s.workers[w]? = some (.acking entryIds) →
      Move s (.ack w call)
        { s with
          stream := (runAck entryIds call s.stream).2
          workers := s.workers.set w .idle }
  | crash {w : WorkerId} {old : WorkerState} : s.workers[w]? = some old →
      Move s (.crash w) { s with workers := s.workers.set w .idle }
  | retryRange {now : Timestamp} {limit : ℕ} : s.retrySweeper = .popped [] →
      Move s (.retryRange now limit)
        { s with
          retrySweeper :=
            if (s.stores.retryPending.due now limit).isEmpty then .popped []
            else .ranged (s.stores.retryPending.due now limit) }
  | retryRemove {call : Call} {due : List UUID} : s.retrySweeper = .ranged due →
      Move s (.retryRemove call)
        { s with
          stores :=
            if call.tookEffect then
              { s.stores with retryPending := s.stores.retryPending.remove due }
            else s.stores
          retrySweeper := .popped (if call.returned then due else []) }
  | retryEnqueue {call : Call} {t : UUID} {rest : List UUID} :
      s.retrySweeper = .popped (t :: rest) →
      Move s (.retryEnqueue call)
        { s with
          stream := if call.tookEffect then s.stream.enqueue t else s.stream
          retrySweeper := if call.returned then .popped rest else .failed t rest }
  | retryReschedule {now : Timestamp} {call : Call} {t : UUID} {rest : List UUID} :
      s.retrySweeper = .failed t rest →
      Move s (.retryReschedule now call)
        { s with
          stores := (s.stores.scheduleRetry t now call).2
          retrySweeper := .popped (if call.returned then rest else []) }
  | reclaim {minIdle count : ℕ} {now : Timestamp} : s.reclaimSweeper = .claimed [] →
      Move s (.reclaim minIdle count now)
        { s with
          stream := s.stream.claimStale .reclaimer minIdle count now
          reclaimSweeper := .claimed (s.stream.stale minIdle count now) }
  | reclaimEnqueue {call : Call} {e : StreamEntry} {rest : List StreamEntry} :
      s.reclaimSweeper = .claimed (e :: rest) →
      Move s (.reclaimEnqueue call)
        { s with
          stream := if call.tookEffect then s.stream.enqueue e.taskId else s.stream
          reclaimSweeper := if call.returned then .enqueued e rest else .claimed rest }
  | reclaimAck {call : Call} {e : StreamEntry} {rest : List StreamEntry} :
      s.reclaimSweeper = .enqueued e rest →
      Move s (.reclaimAck call)
        { s with
          stream := (runAck [e.entryId] call s.stream).2
          reclaimSweeper := .claimed rest }

variable {lib rateLimiter}

theorem move_of_step {s s' : System} {a : Action} (h : step lib rateLimiter s a = some s') :
    Move lib rateLimiter s a s' := by
  cases a with
  | consume w count now =>
    simp only [step] at h
    split at h <;> cases h
    exact .consume ‹_›
  | slot w i a =>
    simp only [step, stepSlot] at h
    split at h
    · rename_i hw
      split at h
      · rename_i hi
        obtain ⟨e, he, rfl⟩ := Option.map_eq_some_iff.1 h
        exact .slot hw hi (slotMove_of_slotStep he)
      · cases h
    · cases h
  | gather w =>
    simp only [step] at h
    split at h
    · rename_i hw
      obtain ⟨b, hb, rfl⟩ := Option.map_eq_some_iff.1 h
      unfold gathered at hb
      split at hb
      · rename_i hall
        cases hb
        exact .gather hw (List.all_eq_true.1 hall)
      · cases hb
    · cases h
  | write w now call =>
    simp only [step] at h
    split at h <;> cases h
    exact .write ‹_›
  | ack w call =>
    simp only [step] at h
    split at h <;> cases h
    exact .ack ‹_›
  | crash w =>
    simp only [step] at h
    split at h <;> cases h
    exact .crash ‹_›
  | retryRange now limit =>
    simp only [step] at h
    split at h <;> cases h
    exact .retryRange ‹_›
  | retryRemove call =>
    simp only [step] at h
    split at h <;> cases h
    exact .retryRemove ‹_›
  | retryEnqueue call =>
    simp only [step] at h
    split at h <;> cases h
    exact .retryEnqueue ‹_›
  | retryReschedule now call =>
    simp only [step] at h
    split at h <;> cases h
    exact .retryReschedule ‹_›
  | reclaim minIdle count now =>
    simp only [step] at h
    split at h <;> cases h
    exact .reclaim ‹_›
  | reclaimEnqueue call =>
    simp only [step] at h
    split at h <;> cases h
    exact .reclaimEnqueue ‹_›
  | reclaimAck call =>
    simp only [step] at h
    split at h <;> cases h
    exact .reclaimAck ‹_›

end

end ApiTesting
