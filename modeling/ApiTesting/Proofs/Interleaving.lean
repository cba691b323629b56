import ApiTesting.Proofs.Durability

/-! The machine against the code it interleaves. The steps of one entry, with
whatever the other processes do in between, are `process_task`; the steps of one
worker after `gather` are the rest of the loop's body. -/

namespace ApiTesting

open Keyed Machine

section
variable (lib : Libraries) (rateLimiter : Bool) (w : WorkerId) (entry : StreamEntry)

/-- The next step of an attempt that has not ended, on the stores the others left. -/
def SlotEffect.next (others : Stores → Stores) (a : SlotAction) (e : SlotEffect) : Option SlotEffect :=
  match e.phase with
  | .returned _ => some e
  | phase => slotStep lib rateLimiter w (others e.stores) ⟨entry, phase⟩ a

/-- The steps of one attempt. -/
def attemptSteps (r : Replies) (others : Others) (st : Stores) : Option SlotEffect := do
  let loaded ← slotStep lib rateLimiter w st ⟨entry, .delivered⟩ .load
  let resolved ← loaded.next lib rateLimiter w entry others.beforeContext (.readContext r.contextReadAt)
  let executing ← resolved.next lib rateLimiter w entry others.beforeLimit
    (.send r.allowed r.limitedAt r.limiterCall)
  executing.next lib rateLimiter w entry others.beforeSettle
    (.settle r.reply r.settledAt r.call r.expireCall)

/-- The steps of an attempt come to what `process_task` returns or raises, on the
stores it leaves. -/
theorem attemptSteps_eq (r : Replies) (others : Others) (st : Stores) :
    (attemptSteps lib rateLimiter w entry r others st).map (fun e => (e.phase, e.stores)) =
      some (.returned (processTask lib rateLimiter entry.taskId w r others st).1,
        (processTask lib rateLimiter entry.taskId w r others st).2) := by
  unfold attemptSteps processTask
  rcases hload : loadTask st.db entry.taskId with e | v
  · simp [slotStep, hload, SlotEffect.next]
  · simp only [slotStep, hload, SlotEffect.next, Option.bind_eq_bind, Option.bind_some]
    rcases hpass : passRateLimit lib rateLimiter v
      (v.chainContext r.contextReadAt (others.beforeContext st).contexts) r.allowed r.limitedAt
      r.limiterCall (others.beforeLimit (others.beforeContext st)) with ⟨e | u, st₂⟩
    · simp
    · simp

end

section
variable (lib : Libraries) (rateLimiter : Bool) {s : System} {w : WorkerId}

theorem worker_after_set {old : WorkerState} (hw : s.workers[w]? = some old) (new : WorkerState) :
    (s.workers.set w new)[w]? = some new :=
  List.getElem?_set_self (List.getElem?_eq_some_iff.1 hw).1

theorem afterWrite_eq (result : Except Exn Unit) (ids : List ℕ) :
    afterWrite result ids = beforeAck (match result with | .ok () => ids | .error _ => []) := by
  rcases result with e | u <;> rfl

/-- The steps from the acknowledgement on. -/
theorem run_beforeAck {ids : List ℕ} (hw : s.workers[w]? = some (beforeAck ids)) (ackCall : Call) :
    ∃ as s', (∀ a ∈ as, a = .ack w ackCall) ∧ Run (step lib rateLimiter) s as s' ∧
      s'.workers[w]? = some .idle ∧ s'.stores.db = s.stores.db ∧
      s'.stream = if ids.isEmpty then s.stream else (runAck ids ackCall s.stream).2 := by
  unfold beforeAck at hw
  by_cases hids : ids.isEmpty
  · rw [if_pos hids] at hw ⊢
    exact ⟨[], s, by simp, .nil, hw, rfl, rfl⟩
  · rw [if_neg hids] at hw ⊢
    have hs : step lib rateLimiter s (.ack w ackCall) = some
        { s with stream := (runAck ids ackCall s.stream).2, workers := s.workers.set w .idle } := by
      simp only [step, hw]
    exact ⟨[.ack w ackCall], _, by simp, .snoc .nil hs, worker_after_set hw _, rfl, rfl⟩

/-- The steps from the write on, where there is something to write. -/
theorem run_writing {b : Batch} (hw : s.workers[w]? = some (.writing b)) (now : Timestamp)
    (writeCall ackCall : Call) :
    ∃ as s', (∀ a ∈ as, a = .write w now writeCall ∨ a = .ack w ackCall) ∧
      Run (step lib rateLimiter) s as s' ∧ s'.workers[w]? = some .idle ∧
      s'.stores.db = (runWrite b.outcomes now writeCall s.stores.db).2 ∧
      s'.stream =
        let ids := match (runWrite b.outcomes now writeCall s.stores.db).1 with
          | .ok () => b.entryIdsToAck
          | .error _ => []
        if ids.isEmpty then s.stream else (runAck ids ackCall s.stream).2 := by
  have hwrite : step lib rateLimiter s (.write w now writeCall) = some
      { s with
        stores := { s.stores with db := (runWrite b.outcomes now writeCall s.stores.db).2 }
        workers := s.workers.set w
          (afterWrite (runWrite b.outcomes now writeCall s.stores.db).1 b.entryIdsToAck) } := by
    simp only [step, hw]
  have hw' := worker_after_set hw
    (afterWrite (runWrite b.outcomes now writeCall s.stores.db).1 b.entryIdsToAck)
  rw [afterWrite_eq] at hw'
  rw [afterWrite_eq] at hwrite
  obtain ⟨as, s', has, hr, hidle, hdb, hst⟩ := run_beforeAck lib rateLimiter (s :=
    { s with
      stores := { s.stores with db := (runWrite b.outcomes now writeCall s.stores.db).2 }
      workers := s.workers.set w (beforeAck _) }) hw' ackCall
  refine ⟨[.write w now writeCall] ++ as, s', ?_, Run.append (.snoc .nil hwrite) hr, hidle, hdb, hst⟩
  intro a ha
  rcases List.mem_append.1 ha with ha | ha
  · exact .inl (List.mem_singleton.1 ha)
  · exact .inr (has a ha)

/-- From `gather` on, the worker's own steps do to the database and the stream what
the body of the loop does, and the worker is back at its start. -/
theorem iteration_eq_finishCycle {slots : List Slot} (hw : s.workers[w]? = some (.gathering slots))
    (hall : ∀ slot ∈ slots, slot.result?.isSome) (now : Timestamp) (writeCall ackCall : Call) :
    ∃ as s', (∀ a ∈ as, a = .gather w ∨ a = .write w now writeCall ∨ a = .ack w ackCall) ∧
      Run (step lib rateLimiter) s as s' ∧ s'.workers[w]? = some .idle ∧
      (s'.stores.db, s'.stream) =
        (finishCycle (slots.filterMap Slot.result?) now writeCall ackCall (s.stores.db, s.stream)).2 := by
  rw [finishCycle_eq]
  generalize hresults : slots.filterMap Slot.result? = results
  have hgather : step lib rateLimiter s (.gather w) =
      some { s with workers := s.workers.set w (afterGather (collect results)) } := by
    have hb : gathered slots = some (collect results) := by
      rw [gathered, if_pos (List.all_eq_true.2 hall), hresults]
    simp only [step, hw, hb, Option.map_some]
  have hw' := worker_after_set hw (afterGather (collect results))
  have hrest : ∃ as s', (∀ a ∈ as, a = .write w now writeCall ∨ a = .ack w ackCall) ∧
      Run (step lib rateLimiter) { s with workers := s.workers.set w (afterGather (collect results)) } as s' ∧
      s'.workers[w]? = some .idle ∧
      s'.stores.db = (if (collect results).outcomes.isEmpty then s.stores.db
        else (runWrite (collect results).outcomes now writeCall s.stores.db).2) ∧
      s'.stream = if (ackList results now writeCall s.stores.db).isEmpty then s.stream
        else (runAck (ackList results now writeCall s.stores.db) ackCall s.stream).2 := by
    unfold ackList
    unfold afterGather at hw' ⊢
    by_cases hnil : (collect results).outcomes.isEmpty
    · rw [if_pos hnil] at hw' ⊢
      simp only [hnil, if_true]
      obtain ⟨as, s', has, hr⟩ := run_beforeAck lib rateLimiter
        (s := { s with workers := s.workers.set w (beforeAck _) }) hw' ackCall
      exact ⟨as, s', fun a ha => .inr (has a ha), hr⟩
    · rw [if_neg hnil] at hw' ⊢
      simp only [hnil, if_false, Bool.false_eq_true]
      exact run_writing lib rateLimiter (s := { s with workers := s.workers.set w (.writing _) }) hw' now
        writeCall ackCall
  obtain ⟨as, s', has, hr, hidle, hdb, hst⟩ := hrest
  refine ⟨[.gather w] ++ as, s', ?_, Run.append (.snoc .nil hgather) hr, hidle, Prod.ext hdb hst⟩
  intro a ha
  rcases List.mem_append.1 ha with ha | ha
  · exact .inl (List.mem_singleton.1 ha)
  · exact .inr (has a ha)

end

end ApiTesting
