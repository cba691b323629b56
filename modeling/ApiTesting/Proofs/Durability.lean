import ApiTesting.Proofs.Ownership

/-! Acknowledgement after durability: what one iteration of `_consume_loop` does
with a batch once `process_task` has ended for each of its entries, in whichever
way, and whichever of the two calls after it fails. -/

namespace ApiTesting

open Keyed Machine Fallible

/-- What the attempt of one entry ran into. -/
structure Processing where
  stores : Stores
  replies : Replies
  others : Others

section
variable (lib : Libraries) (rateLimiter : Bool) (w : WorkerId)

/-- How `process_task` ends for an entry: as its replies and the other processes
have it, or with an exception of library code on the way. -/
def attemptResult (e : StreamEntry) (work : Except LibraryExn Processing) : Except Exn TaskOutcome :=
  match work with
  | .error err => .error err.val
  | .ok p => (processTask lib rateLimiter e.taskId w p.replies p.others p.stores).1

/-- The attempt was deferred, its task put on the retry set first. -/
def Deferred (e : StreamEntry) (work : Except LibraryExn Processing) : Prop :=
  ∃ (p : Processing) (err : Exn) (st : Stores) (at_ : Timestamp), work = .ok p ∧ err.cls = .rateLimited ∧
    processTask lib rateLimiter e.taskId w p.replies p.others p.stores =
      (.error err, { st with retryPending := st.retryPending.scheduleRetry e.taskId at_ })

/-- One of the rows of the task was missing when they were read. -/
def RowMissing (e : StreamEntry) (work : Except LibraryExn Processing) : Prop :=
  ∃ p : Processing, work = .ok p ∧
    (p.stores.db.testTasks.get? e.taskId = none ∨
      ∃ row, p.stores.db.testTasks.get? e.taskId = some row ∧
        (p.stores.db.apiRequests.get? row.apiRequestId = none ∨
          p.stores.db.testRuns.get? row.testRunId = none))

/-- The outcomes of a batch, in its order. -/
def batchOutcomes (entries : List StreamEntry) (work : StreamEntry → Except LibraryExn Processing) :
    List TaskOutcome :=
  entries.filterMap fun e => (attemptResult lib rateLimiter w e (work e)).toOption

/-- `_consume_loop` from the results `gather` hands over to the end of the iteration. -/
def finishBatch (entries : List StreamEntry) (work : StreamEntry → Except LibraryExn Processing)
    (now : Timestamp) (writeCall ackCall : Call) : LoopM Unit :=
  finishCycle (entries.map fun e => processEntry e (attemptResult lib rateLimiter w e (work e))) now
    writeCall ackCall

end

/-- The result, the log line and the row of the task of an outcome are in the database. -/
structure Committed (outcomes : List TaskOutcome) (now : Timestamp) (db : Database) (o : TaskOutcome) :
    Prop where
  result : buildRequestResult now o ∈ db.requestResults
  log : buildLog now o ∈ db.executionLogs
  -- of two outcomes for one task the row keeps the later one
  row : ∃ row, db.testTasks.get? o.testTaskId = some row ∧
    ∃ q ∈ outcomes, q.testTaskId = o.testTaskId ∧ ∃ u : TestTask, row = u.record q

/-- What an iteration guarantees; `r` is how it ends, started on `db` and `st`. -/
structure AckedAfterWrite (lib : Libraries) (rateLimiter : Bool) (w : WorkerId)
    (entries : List StreamEntry) (work : StreamEntry → Except LibraryExn Processing) (now : Timestamp)
    (writeCall : Call) (db : Database) (st : Stream) (r : Except Exn Unit × Database × Stream) : Prop where
  noRaise : r.1 = .ok ()
  written : r.2.1 = db ∨ Written (batchOutcomes lib rateLimiter w entries work) now db r.2.1
  acked : ∀ p ∈ st.pending.rows, p ∉ r.2.2.pending.rows → ∃ e ∈ entries, e.entryId = p.id ∧
    ((∃ o, attemptResult lib rateLimiter w e (work e) = .ok o ∧
      Committed (batchOutcomes lib rateLimiter w entries work) now r.2.1 o) ∨
      Deferred lib rateLimiter w e (work e) ∨ RowMissing e (work e))
  unwritten : batchOutcomes lib rateLimiter w entries work ≠ [] →
    (runWrite (batchOutcomes lib rateLimiter w entries work) now writeCall db).1 ≠ .ok () → r.2.2 = st
  unexpected : ∀ e ∈ entries, ∀ err, attemptResult lib rateLimiter w e (work e) = .error err →
    ¬ err.handled → ∀ p ∈ st.pending.rows, p.id = e.entryId → p ∈ r.2.2.pending.rows

section
variable {lib : Libraries} {rateLimiter : Bool} {w : WorkerId}

/-! How an attempt ends. -/

theorem rowMissing_of_loadTask {db : Database} {t : UUID} {e : Exn} (h : loadTask db t = .error e) :
    db.testTasks.get? t = none ∨ ∃ row, db.testTasks.get? t = some row ∧
      (db.apiRequests.get? row.apiRequestId = none ∨ db.testRuns.get? row.testRunId = none) := by
  rcases ht : db.testTasks.get? t with _ | row
  · exact .inl rfl
  · refine .inr ⟨row, rfl, ?_⟩
    rcases hq : db.apiRequests.get? row.apiRequestId with _ | q
    · exact .inl rfl
    · rcases hr : db.testRuns.get? row.testRunId with _ | r
      · exact .inr rfl
      · obtain ⟨v, hv⟩ := loadTask_isOk ht (hq ▸ rfl) (hr ▸ rfl)
        rw [hv] at h
        cases h

/-- An exception the loop acknowledges was raised over a missing row, or after the
task was put on the retry set. -/
theorem dropped_of_handled {e : StreamEntry} {work : Except LibraryExn Processing} {err : Exn}
    (h : attemptResult lib rateLimiter w e work = .error err) (hh : err.handled) :
    Deferred lib rateLimiter w e work ∨ RowMissing e work := by
  rcases work with x | p
  · cases h
    exact absurd hh (not_handled_of_library x.property)
  · rcases processTask_handled h hh with hload | ⟨hcls, st, at_, hst⟩
    · exact .inr ⟨p, rfl, rowMissing_of_loadTask hload⟩
    · exact .inl ⟨p, err, st, at_, rfl, hcls, Prod.ext h hst⟩

/-! The two calls of an iteration, and their handlers. -/

section
variable (results : List (Except Exn (ℕ × Option TaskOutcome))) (now : Timestamp)
  (writeCall ackCall : Call) (db : Database) (st : Stream)

/-- The entries handed to `ack`. -/
def ackList : List ℕ :=
  if (collect results).outcomes.isEmpty then (collect results).entryIdsToAck
  else
    match (runWrite (collect results).outcomes now writeCall db).1 with
    | .ok () => (collect results).entryIdsToAck
    | .error _ => []

/-- The handler around the write: where it raises, nothing is left to acknowledge. -/
theorem tryWrite_eq (outcomes : List TaskOutcome) (ids : List ℕ) :
    (tryCatch (do LoopM.write outcomes now writeCall; pure ids) (fun _ => pure []) : LoopM (List ℕ))
        (db, st) =
      (.ok (match (runWrite outcomes now writeCall db).1 with | .ok () => ids | .error _ => []),
        (runWrite outcomes now writeCall db).2, st) := by
  have hwrite : LoopM.write outcomes now writeCall (db, st) =
      ((runWrite outcomes now writeCall db).1, (runWrite outcomes now writeCall db).2, st) := rfl
  generalize runWrite outcomes now writeCall db = r at hwrite ⊢
  obtain ⟨x | u, db'⟩ := r
  · exact tryCatch_of_error _ (bind_of_error _ hwrite)
  · exact tryCatch_of_ok _ (bind_of_ok _ hwrite)

/-- The handler around the acknowledgement. -/
theorem tryAck_eq (ids : List ℕ) :
    (if ids.isEmpty then pure () else tryCatch (LoopM.ack ids ackCall) fun _ => pure () : LoopM Unit)
        (db, st) =
      (.ok (), db, if ids.isEmpty then st else (runAck ids ackCall st).2) := by
  by_cases hids : ids.isEmpty
  · rw [if_pos hids, if_pos hids]
    rfl
  · rw [if_neg hids, if_neg hids]
    cases ackCall <;> rfl

/-- An iteration raises nothing, writes where there is an outcome, and then acknowledges. -/
theorem finishCycle_eq :
    finishCycle results now writeCall ackCall (db, st) =
      (.ok (),
        if (collect results).outcomes.isEmpty then db
        else (runWrite (collect results).outcomes now writeCall db).2,
        if (ackList results now writeCall db).isEmpty then st
        else (runAck (ackList results now writeCall db) ackCall st).2) := by
  unfold finishCycle ackList
  by_cases hout : (collect results).outcomes.isEmpty
  · simp only [hout, if_true]
    exact tryAck_eq ackCall db st _
  · simp only [hout, if_false, Bool.false_eq_true]
    rw [bind_of_ok _ (tryWrite_eq now writeCall db st _ _)]
    exact tryAck_eq ackCall _ st _

end

/-! What the batch hands over. -/

section
variable {entries : List StreamEntry} {work : StreamEntry → Except LibraryExn Processing} {id : ℕ}

theorem toOption_processEntry (e : StreamEntry) (r : Except Exn TaskOutcome) :
    (processEntry e r).toOption.bind Prod.snd = r.toOption := by
  rcases r with err | o
  · simp only [processEntry]
    split <;> rfl
  · rfl

theorem processEntry_eq_ok {e : StreamEntry} {r : Except Exn TaskOutcome} {p : ℕ × Option TaskOutcome}
    (h : processEntry e r = .ok p) :
    p.1 = e.entryId ∧ ((∃ o, r = .ok o) ∨ ∃ err, r = .error err ∧ err.handled) := by
  rcases r with err | o
  · simp only [processEntry] at h
    split at h <;> cases h
    exact ⟨rfl, .inr ⟨err, rfl, ‹_›⟩⟩
  · cases h
    exact ⟨rfl, .inl ⟨o, rfl⟩⟩

theorem outcomes_collect :
    (collect (entries.map fun e => processEntry e (attemptResult lib rateLimiter w e (work e)))).outcomes =
      batchOutcomes lib rateLimiter w entries work := by
  rw [collect_eq, batchOutcomes]
  simp only [List.filterMap_map]
  refine List.filterMap_congr fun e _ => ?_
  exact toOption_processEntry e _

theorem mem_ids_collect (h : id ∈ (collect (entries.map fun e =>
    processEntry e (attemptResult lib rateLimiter w e (work e)))).entryIdsToAck) :
    ∃ e ∈ entries, e.entryId = id ∧ ((∃ o, attemptResult lib rateLimiter w e (work e) = .ok o) ∨
      ∃ err, attemptResult lib rateLimiter w e (work e) = .error err ∧ err.handled) := by
  obtain ⟨o, ho⟩ := mem_collect_ids.1 h
  obtain ⟨e, he, hr⟩ := List.mem_map.1 ho
  obtain ⟨hid, hres⟩ := processEntry_eq_ok hr
  exact ⟨e, he, hid.symm, hres⟩

theorem mem_batchOutcomes {e : StreamEntry} {o : TaskOutcome} (he : e ∈ entries)
    (ho : attemptResult lib rateLimiter w e (work e) = .ok o) :
    o ∈ batchOutcomes lib rateLimiter w entries work :=
  List.mem_filterMap.2 ⟨e, he, by rw [ho]; rfl⟩

end

/-! What a write that returned has committed. -/

theorem runWrite_eq_ok {outcomes : List TaskOutcome} {now : Timestamp} {call : Call} {db : Database}
    (h : (runWrite outcomes now call db).1 = .ok ()) :
    writeBatch outcomes now db = .ok (runWrite outcomes now call db).2 := by
  unfold runWrite at h ⊢
  generalize writeBatch outcomes now db = r at h ⊢
  rcases r with e | db'
  · cases call <;> cases h
  · cases call with
    | ok => rfl
    | _ => cases h

theorem committed_of_writeBatch {outcomes : List TaskOutcome} {now : Timestamp} {db db' : Database}
    (h : writeBatch outcomes now db = .ok db') {o : TaskOutcome} (ho : o ∈ outcomes) :
    Committed outcomes now db' o := by
  have hw := written_of_writeBatch h
  refine ⟨?_, ?_, ?_⟩
  · rw [hw.requestResults]
    exact List.mem_append.2 (.inr (List.mem_map_of_mem ho))
  · rw [hw.executionLogs]
    exact List.mem_append.2 (.inr (List.mem_map_of_mem ho))
  · obtain ⟨row, hrow⟩ := row_of_writeBatch h ho
    obtain ⟨-, -, ⟨-, hnone⟩ | hlast⟩ := hw.get?_testTasks hrow
    · exact absurd rfl (hnone o ho)
    · exact ⟨row, hrow, hlast⟩

theorem mem_ackList {results : List (Except Exn (ℕ × Option TaskOutcome))} {now : Timestamp}
    {writeCall : Call} {db : Database} {id : ℕ} (h : id ∈ ackList results now writeCall db) :
    id ∈ (collect results).entryIdsToAck ∧ ((collect results).outcomes = [] ∨
      (runWrite (collect results).outcomes now writeCall db).1 = .ok ()) := by
  unfold ackList at h
  split at h
  · rename_i hnil
    exact ⟨h, .inl (List.isEmpty_iff.1 hnil)⟩
  · split at h
    · rename_i hok
      exact ⟨h, .inr hok⟩
    · cases h

/-- What is gone from the pending list after an iteration was acknowledged. -/
theorem mem_ackList_of_gone {results : List (Except Exn (ℕ × Option TaskOutcome))} {now : Timestamp}
    {writeCall ackCall : Call} {db : Database} {st : Stream} {p : Pending} (hp : p ∈ st.pending.rows)
    (hgone : p ∉ (if (ackList results now writeCall db).isEmpty then st
      else (runAck (ackList results now writeCall db) ackCall st).2).pending.rows) :
    p.id ∈ ackList results now writeCall db := by
  by_contra hno
  refine hgone ?_
  split
  · exact hp
  · exact mem_pending_runAck hp hno

/-- An entry of the list has an outcome that was written, or was dropped on purpose. -/
theorem written_or_handled {entries : List StreamEntry} {work : StreamEntry → Except LibraryExn Processing}
    {now : Timestamp} {writeCall : Call} {db : Database} {id : ℕ}
    (h : id ∈ ackList (entries.map fun e => processEntry e (attemptResult lib rateLimiter w e (work e)))
      now writeCall db) :
    ∃ e ∈ entries, e.entryId = id ∧
      ((∃ o, attemptResult lib rateLimiter w e (work e) = .ok o ∧
        (runWrite (batchOutcomes lib rateLimiter w entries work) now writeCall db).1 = .ok ()) ∨
        ∃ err, attemptResult lib rateLimiter w e (work e) = .error err ∧ err.handled) := by
  obtain ⟨hid, hwritten⟩ := mem_ackList h
  rw [outcomes_collect] at hwritten
  obtain ⟨e, he, heid, ⟨o, ho⟩ | hdrop⟩ := mem_ids_collect hid
  · refine ⟨e, he, heid, .inl ⟨o, ho, ?_⟩⟩
    rcases hwritten with hnil | hok
    · have := mem_batchOutcomes he ho
      rw [hnil] at this
      cases this
    · exact hok
  · exact ⟨e, he, heid, .inr hdrop⟩

/-- Whatever became of the entries of a batch, and whichever call fails after it,
an entry is acknowledged only once its outcome is committed, its task is back on
the retry set, or one of its rows was found missing. -/
theorem acked_after_write (lib : Libraries) (rateLimiter : Bool) (w : WorkerId) (stream : Stream)
    (count : ℕ) (work : StreamEntry → Except LibraryExn Processing) (now : Timestamp)
    (writeCall ackCall : Call) (db : Database) (st : Stream) :
    AckedAfterWrite lib rateLimiter w (stream.batch count) work now writeCall db st
      (finishBatch lib rateLimiter w (stream.batch count) work now writeCall ackCall (db, st)) := by
  have hnd : ((stream.batch count).map StreamEntry.entryId).Nodup := by
    rw [Stream.batch_ids]
    exact List.nodup_range'
  generalize hentries : stream.batch count = entries at hnd ⊢
  rw [finishBatch, finishCycle_eq]
  generalize hresults : (entries.map fun e =>
    processEntry e (attemptResult lib rateLimiter w e (work e))) = results
  have hout : (collect results).outcomes = batchOutcomes lib rateLimiter w entries work := by
    rw [← hresults, outcomes_collect]
  have hacked : ∀ p ∈ st.pending.rows,
      p ∉ (if (ackList results now writeCall db).isEmpty then st
        else (runAck (ackList results now writeCall db) ackCall st).2).pending.rows →
      ∃ e ∈ entries, e.entryId = p.id ∧
        ((∃ o, attemptResult lib rateLimiter w e (work e) = .ok o ∧
          (runWrite (batchOutcomes lib rateLimiter w entries work) now writeCall db).1 = .ok ()) ∨
          ∃ err, attemptResult lib rateLimiter w e (work e) = .error err ∧ err.handled) := by
    intro p hp hgone
    have hid := mem_ackList_of_gone hp hgone
    rw [← hresults] at hid
    exact written_or_handled hid
  refine ⟨rfl, ?_, ?_, ?_, ?_⟩
  · dsimp only
    rw [hout]
    split
    · exact .inl rfl
    · rcases runWrite_cases (batchOutcomes lib rateLimiter w entries work) now writeCall db with hdb | ⟨-, hok⟩
      · exact .inl hdb
      · exact .inr (written_of_writeBatch hok)
  · intro p hp hpgone
    obtain ⟨e, he, heid, ⟨o, ho, hok⟩ | ⟨err, herr, hh⟩⟩ := hacked p hp hpgone
    · refine ⟨e, he, heid, .inl ⟨o, ho, ?_⟩⟩
      have hmem := mem_batchOutcomes he ho
      have hne : (batchOutcomes lib rateLimiter w entries work).isEmpty = false :=
        List.isEmpty_eq_false_iff.2 (List.ne_nil_of_mem hmem)
      dsimp only
      rw [hout, hne, if_neg Bool.false_ne_true]
      exact committed_of_writeBatch (runWrite_eq_ok hok) hmem
    · exact ⟨e, he, heid, .inr (dropped_of_handled herr hh)⟩
  · intro hne hfail
    dsimp only
    have hnil : ackList results now writeCall db = [] := by
      rw [List.eq_nil_iff_forall_not_mem]
      intro id hid
      rcases (mem_ackList hid).2 with h | h
      · exact hne (hout ▸ h)
      · exact hfail (hout ▸ h)
    rw [hnil]
    rfl
  · intro e he err herr hnot p hp hpid
    by_contra hpgone
    obtain ⟨e', he', heid, hres⟩ := hacked p hp hpgone
    obtain rfl : e' = e := List.inj_on_of_nodup_map hnd he' he (heid.trans hpid)
    rcases hres with ⟨o, ho, -⟩ | ⟨err', herr', hh⟩
    · rw [herr] at ho
      cases ho
    · rw [herr] at herr'
      cases herr'
      exact hnot hh

end

end ApiTesting
