import ApiTesting.Spec.TaskProcessor

/-! `worker.main`: one iteration of the consume loop. The results `gather` hands
over are collected, the outcomes written in one batch, and the entries
acknowledged; a handler stands around the write and around the acknowledgement. -/

namespace ApiTesting

/-- `_process_entry`: what `process_task` returned or raised, as `gather` sees it. -/
def processEntry (entry : StreamEntry) (result : Except Exn TaskOutcome) :
    Except Exn (ℕ × Option TaskOutcome) :=
  match result with
  | .ok outcome => .ok (entry.entryId, some outcome)
  | .error e =>
    if e.cls = .taskProcessing ∨ e.cls = .rateLimited then .ok (entry.entryId, none) else .error e

structure Batch where
  entryIdsToAck : List ℕ
  outcomes : List TaskOutcome

/-- One round of the loop over the results. -/
def Batch.add (b : Batch) (result : Except Exn (ℕ × Option TaskOutcome)) : Batch :=
  match result with
  | .error _ => b
  | .ok (entryId, none) => { b with entryIdsToAck := b.entryIdsToAck ++ [entryId] }
  | .ok (entryId, some outcome) =>
    { entryIdsToAck := b.entryIdsToAck ++ [entryId], outcomes := b.outcomes ++ [outcome] }

def collect (results : List (Except Exn (ℕ × Option TaskOutcome))) : Batch :=
  results.foldl Batch.add ⟨[], []⟩

/-- `write_batch` in its session: where it raises before the commit, nothing is written. -/
def runWrite (outcomes : List TaskOutcome) (now : Timestamp) (call : Call) (db : Database) :
    Except Exn Unit × Database :=
  match call, writeBatch outcomes now db with
  | .raisedBefore, _ => (.error callError, db)
  | _, .error e => (.error e, db)
  | .ok, .ok db' => (.ok (), db')
  | .raisedAfter, .ok db' => (.error callError, db')

/-- `stream_queue.ack`. -/
def runAck (entryIds : List ℕ) (call : Call) (st : Stream) : Except Exn Unit × Stream :=
  (if call.returned then .ok () else .error callError,
    if call.tookEffect then st.ack entryIds else st)

/-- The body of the loop runs on the database and the stream and may raise. -/
abbrev LoopM := ExceptT Exn (StateM (Database × Stream))

def LoopM.write (outcomes : List TaskOutcome) (now : Timestamp) (call : Call) : LoopM Unit :=
  fun s =>
    let r := runWrite outcomes now call s.1
    (r.1, (r.2, s.2))

def LoopM.ack (entryIds : List ℕ) (call : Call) : LoopM Unit :=
  fun s =>
    let r := runAck entryIds call s.2
    (r.1, (s.1, r.2))

/-- What `_consume_loop` does with the results of one batch. -/
def finishCycle (results : List (Except Exn (ℕ × Option TaskOutcome))) (now : Timestamp)
    (writeCall ackCall : Call) : LoopM Unit := do
  let batch := collect results
  let entryIdsToAck ←
    if batch.outcomes.isEmpty then pure batch.entryIdsToAck
    else
      tryCatch
        (do
          LoopM.write batch.outcomes now writeCall
          pure batch.entryIdsToAck)
        (fun _ => pure [])
  if entryIdsToAck.isEmpty then pure ()
  else tryCatch (LoopM.ack entryIdsToAck ackCall) (fun _ => pure ())

/-- The batch as two lists filtered out of the results. -/
theorem collect_eq (results : List (Except Exn (ℕ × Option TaskOutcome))) :
    collect results =
      ⟨results.filterMap fun r => r.toOption.map Prod.fst,
        results.filterMap fun r => r.toOption.bind Prod.snd⟩ := by
  have hacc : ∀ b : Batch, results.foldl Batch.add b =
      ⟨b.entryIdsToAck ++ results.filterMap fun r => r.toOption.map Prod.fst,
        b.outcomes ++ results.filterMap fun r => r.toOption.bind Prod.snd⟩ := by
    induction results with
    | nil => simp
    | cons r results ih =>
      intro b
      rw [List.foldl_cons, ih]
      rcases r with e | ⟨entryId, _ | outcome⟩ <;> simp [Batch.add, Except.toOption]
  simpa [collect] using hacc ⟨[], []⟩

theorem mem_collect_ids {results : List (Except Exn (ℕ × Option TaskOutcome))} {i : ℕ} :
    i ∈ (collect results).entryIdsToAck ↔ ∃ o, .ok (i, o) ∈ results := by
  rw [collect_eq]
  simp only [List.mem_filterMap, Option.map_eq_some_iff]
  constructor
  · rintro ⟨r, hr, ⟨j, o⟩, hj, rfl⟩
    rcases r with e | p
    · cases hj
    · cases hj
      exact ⟨o, hr⟩
  · rintro ⟨o, ho⟩
    exact ⟨_, ho, (i, o), rfl, rfl⟩

theorem mem_collect_outcomes {results : List (Except Exn (ℕ × Option TaskOutcome))}
    {o : TaskOutcome} :
    o ∈ (collect results).outcomes ↔ ∃ i, .ok (i, some o) ∈ results := by
  rw [collect_eq]
  simp only [List.mem_filterMap, Option.bind_eq_some_iff]
  constructor
  · rintro ⟨r, hr, ⟨i, o'⟩, hj, ho⟩
    rcases r with e | p
    · cases hj
    · cases hj
      cases ho
      exact ⟨i, hr⟩
  · rintro ⟨i, hi⟩
    exact ⟨_, hi, (i, some o), rfl, rfl⟩

end ApiTesting
