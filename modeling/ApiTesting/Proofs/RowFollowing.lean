import ApiTesting.Proofs.RowIsolation
import ApiTesting.Spec.Platform

/-! The platform follows each data row by itself, whatever else is on it: every step is an
event of the row or leaves all that the row has as it is. -/

namespace ApiTesting

open Keyed Machine

/-- What is known of the platform whatever the row has done. -/
structure Tracked (c : CreatedRun) (row : Option ℕ) (s : System) : Prop where
  kept : c.Kept s.stores.db
  distinct : s.Distinct
  sound : ∀ {w i slot}, s.slotAt? w i = some slot → slot.sound
  sees : ∀ {w i slot v}, s.slotAt? w i = some slot → .running v ∈ slot.attempts → c.Sees row v

/-- The row by itself is where the platform has it. -/
structure Follows (c : CreatedRun) (row : Option ℕ) (s : System) (q : DataRow) : Prop where
  tracked : Tracked c row s
  values : s.stores.contexts.valuesAt (RunContext.contextKey c.run.id row) = q.values
  merged : c.mergedFor row s = q.merged
  sent : c.sentFor row s = q.sent
  attempts : ∀ {w i slot attempt}, s.slotAt? w i = some slot → slot.entry.taskId ∈ c.rowTasks row →
    slot.phase.rowAttempt = some attempt → q.attempts slot.entry.entryId = some attempt

section
variable {lib : Libraries} {rateLimiter : Bool} {s s' : System} {a : Action} {c : CreatedRun}
  {row : Option ℕ} {w : WorkerId} {i : ℕ} {slots : List Slot} {slot : Slot} {q q' : DataRow}

/-- An attempt that is running after a move was so before, or has just read its rows. -/
theorem running_of_move {st : Stores} {sa : SlotAction} {e : SlotEffect}
    (hm : SlotMove lib rateLimiter w st slot sa e) {v : TaskView}
    (hv : .running v ∈ ({ slot with phase := e.phase } : Slot).attempts) :
    .running v ∈ slot.attempts ∨ loadTask st.db slot.entry.taskId = .ok v := by
  cases hm with
  | load hph hload =>
    cases List.mem_singleton.1 hv
    exact .inr hload
  | readContext hph =>
    cases List.mem_singleton.1 hv
    exact .inl (by simp [Slot.attempts, hph, Phase.attempts])
  | sent hph =>
    cases List.mem_singleton.1 hv
    exact .inl (by simp [Slot.attempts, hph, Phase.attempts])
  | @judged v chain reply now call expireCall write o hph hj =>
    rcases hp : (st.perform v write now call expireCall).1 with err | u <;>
      simp [Slot.attempts, hp, Except.map, Phase.attempts] at hv
  | missing => cases hv
  | refused => cases hv
  | unjudged => cases hv
  | callRaised => cases hv

theorem Tracked.step (h : Tracked c row s) (hm : Move lib rateLimiter s a s') : Tracked c row s' where
  kept := h.kept.move hm
  distinct := h.distinct.step hm
  sound := by
    intro w i slot' hat
    rcases slotAt?_of_move hm hat with ⟨hold, -⟩ | ⟨sa, slot, e, -, hold, hmove, rfl⟩ |
      ⟨count, now, rfl, -, hph⟩
    · exact h.sound hold
    · exact Slot.sound_of_move (h.sound hold) hmove
    · intro b hb
      simp [Slot.attempts, hph, Phase.attempts] at hb
  sees := by
    intro w i slot' v hat hv
    rcases slotAt?_of_move hm hat with ⟨hold, -⟩ | ⟨sa, slot, e, -, hold, hmove, rfl⟩ |
      ⟨count, now, rfl, -, hph⟩
    · exact h.sees hold hv
    · rcases running_of_move hmove hv with hv | hload
      · exact h.sees hold hv
      · exact h.kept.sees hload
    · simp [Slot.attempts, hph, Phase.attempts] at hv

/-- A step that no attempt of the row takes part in. -/
theorem Follows.frame (h : Follows c row s q) (hm : Move lib rateLimiter s a s')
    (hvalues : s'.stores.contexts.valuesAt (RunContext.contextKey c.run.id row) =
      s.stores.contexts.valuesAt (RunContext.contextKey c.run.id row))
    (hmerged : c.mergedFor row s' = c.mergedFor row s) (hsent : c.sentFor row s' = c.sentFor row s)
    (hother : ∀ w i sa slot, a = .slot w i sa → s.slotAt? w i = some slot →
      slot.entry.taskId ∉ c.rowTasks row) : Follows c row s' q where
  tracked := h.tracked.step hm
  values := hvalues.trans h.values
  merged := hmerged.trans h.merged
  sent := hsent.trans h.sent
  attempts := by
    intro w i slot' attempt hat hown hph
    rcases slotAt?_of_move hm hat with ⟨hold, -⟩ | ⟨sa, slot, e, ha, hold, -, rfl⟩ |
      ⟨count, now, rfl, -, hdelivered⟩
    · exact h.attempts hold hown hph
    · exact absurd hown (hother w i sa slot ha hold)
    · simp [hdelivered, Phase.rowAttempt] at hph

/-- A step of one of the attempts of the row. -/
theorem Follows.own (h : Follows c row s q) {sa : SlotAction}
    (hm : Move lib rateLimiter s (.slot w i sa) s') (hat : s.slotAt? w i = some slot)
    (hvalues : s'.stores.contexts.valuesAt (RunContext.contextKey c.run.id row) = q'.values)
    (hmerged : c.mergedFor row s' = q'.merged) (hsent : c.sentFor row s' = q'.sent)
    (hothers : ∀ n, n ≠ slot.entry.entryId → q'.attempts n = q.attempts n)
    (hself : ∀ slot' attempt, s'.slotAt? w i = some slot' → slot'.phase.rowAttempt = some attempt →
      q'.attempts slot.entry.entryId = some attempt) : Follows c row s' q' where
  tracked := h.tracked.step hm
  values := hvalues
  merged := hmerged
  sent := hsent
  attempts := by
    intro v j slot' attempt hat' hown hph
    rcases slotAt?_of_move hm hat' with ⟨hold, hne⟩ | ⟨sa', old, e, ha, hold, hmove, rfl⟩ |
      ⟨count, now, ha, -, -⟩
    · have hid : slot'.entry.entryId ≠ slot.entry.entryId := by
        intro he
        obtain ⟨rfl, rfl⟩ := h.tracked.distinct.inj hold hat he
        exact hne sa rfl
      rw [hothers _ hid]
      exact h.attempts hold hown hph
    · cases ha
      obtain rfl := Option.some.inj (hat.symm.trans hold)
      exact hself _ attempt hat' hph
    · cases ha

/-! The record of the row. -/

theorem rowEvents_own {sa : SlotAction} (hat : s.slotAt? w i = some slot)
    (hown : slot.entry.taskId ∈ c.rowTasks row) :
    c.rowEvents row s (.work (.slot w i sa)) =
      ((slot.rowEvent s.stores.db sa).map (slot.entry.entryId, ·)).toList := by
  simp only [CreatedRun.rowEvents, hat, if_pos hown]

theorem rowEvents_foreign {sa : SlotAction} (hat : s.slotAt? w i = some slot)
    (hforeign : slot.entry.taskId ∉ c.rowTasks row) : c.rowEvents row s (.work (.slot w i sa)) = [] := by
  simp only [CreatedRun.rowEvents, hat, if_neg hforeign]

theorem rowEvents_eq_nil (ha : ∀ w i sa, a ≠ .slot w i sa) : c.rowEvents row s (.work a) = [] := by
  cases a with
  | slot w i sa => exact absurd rfl (ha w i sa)
  | _ => rfl

theorem sentFor_append (c : CreatedRun) (row : Option ℕ) {sent : List SentRequest} (hs : s'.sent = s.sent ++ sent) :
    c.sentFor row s' = c.sentFor row s ++ sent.filter fun r => r.testTaskId ∈ c.rowTasks row := by
  rw [CreatedRun.sentFor, hs, List.filter_append, CreatedRun.sentFor]

theorem mergedFor_append (c : CreatedRun) (row : Option ℕ) {published : List (UUID × Dict String String)}
    (hp : s'.published = s.published ++ published) :
    c.mergedFor row s' = c.mergedFor row s ++
      (published.filter fun p => p.1 ∈ c.rowTasks row).map Prod.snd := by
  rw [CreatedRun.mergedFor, hp, List.filter_append, List.map_append, CreatedRun.mergedFor]

theorem filter_requests_own {v : TaskView} (h : v.testTask.id ∈ c.rowTasks row) (chain : Dict String String) :
    ((v.requests chain).filter fun r => r.testTaskId ∈ c.rowTasks row) = v.requests chain := by
  rw [List.filter_eq_self]
  intro r hr
  rw [testTaskId_of_requests hr]
  exact decide_eq_true h

theorem filter_requests_foreign {v : TaskView} (h : v.testTask.id ∉ c.rowTasks row)
    (chain : Dict String String) :
    ((v.requests chain).filter fun r => r.testTaskId ∈ c.rowTasks row) = [] := by
  rw [List.filter_eq_nil_iff]
  intro r hr
  rw [testTaskId_of_requests hr]
  simpa using h

/-- What the row keeps of a step that another attempt takes. -/
theorem foreign_effect {sa : SlotAction} {e : SlotEffect} {st : Stores}
    (hmove : SlotMove lib rateLimiter w st slot sa e)
    (hrunning : ∀ v, .running v ∈ slot.attempts → v.testTask.id ∉ c.rowTasks row ∧
      RunContext.contextKey c.run.id row ≠ v.contextKey) :
    e.stores.contexts.valuesAt (RunContext.contextKey c.run.id row) =
        st.contexts.valuesAt (RunContext.contextKey c.run.id row) ∧
      (e.sent.filter fun r => r.testTaskId ∈ c.rowTasks row) = [] ∧
      (e.published.filter fun p => p.1 ∈ c.rowTasks row) = [] := by
  cases hmove with
  | @refused v chain allowed now call err st' hph hpass =>
    have hlim := passRateLimit_limited lib rateLimiter v chain allowed now call st
    rw [hpass] at hlim
    exact ⟨by rw [contexts_of_limited hlim], rfl, rfl⟩
  | @sent v chain allowed now call st' hph hpass =>
    have hlim := passRateLimit_limited lib rateLimiter v chain allowed now call st
    rw [hpass] at hlim
    obtain ⟨hid, -⟩ := hrunning v (by simp [Slot.attempts, hph, Phase.attempts])
    exact ⟨by rw [contexts_of_limited hlim], filter_requests_foreign hid chain, rfl⟩
  | @judged v chain reply now call expireCall write o hph hj =>
    obtain ⟨hid, hkey⟩ := hrunning v (by simp [Slot.attempts, hph, Phase.attempts])
    refine ⟨valuesAt_perform_ne hkey write now call expireCall, rfl, ?_⟩
    cases write with
    | merge vars =>
      dsimp only
      split <;> simp [hid]
    | _ => rfl
  | _ => exact ⟨rfl, rfl, rfl⟩

theorem mergeAll_append (merged : List (Dict String String)) (vars : Dict String String) :
    mergeAll (merged ++ [vars]) = (mergeAll merged).update vars := by
  simp [mergeAll]

/-- The platform after the step of one attempt. -/
def System.afterSlot (s : System) (w : WorkerId) (slots : List Slot) (i : ℕ) (slot : Slot) (e : SlotEffect) :
    System :=
  { s with
    stores := e.stores
    sent := s.sent ++ e.sent
    published := s.published ++ e.published
    workers := s.workers.set w (.gathering (slots.set i { slot with phase := e.phase })) }

theorem slotAt?_afterSlot (hw : s.workers[w]? = some (.gathering slots)) (hi : slots[i]? = some slot)
    (e : SlotEffect) :
    (s.afterSlot w slots i slot e).slotAt? w i = some { slot with phase := e.phase } :=
  slotAt?_eq (List.getElem?_set_self (List.getElem?_eq_some_iff.1 hw).1)
    (List.getElem?_set_self (List.getElem?_eq_some_iff.1 hi).1)

/-- An attempt of the row uses its key and the environment of the run. -/
theorem Follows.view_own (h : Follows c row s q) (hat : s.slotAt? w i = some slot)
    (hown : slot.entry.taskId ∈ c.rowTasks row) {v : TaskView} (hv : .running v ∈ slot.attempts) :
    v.testTask.id ∈ c.rowTasks row ∧ v.contextKey = RunContext.contextKey c.run.id row ∧
      v.testRun.environmentVariables = c.environment := by
  have hid : v.testTask.id = slot.entry.taskId := h.tracked.sound hat _ hv
  cases h.tracked.sees hat hv with
  | own hmem hkey henv => exact ⟨hmem, hkey, henv⟩
  | foreign hforeign =>
    rw [hid] at hforeign
    exact absurd hown hforeign

theorem Follows.view_foreign (h : Follows c row s q) (hat : s.slotAt? w i = some slot)
    (hforeign : slot.entry.taskId ∉ c.rowTasks row) {v : TaskView} (hv : .running v ∈ slot.attempts) :
    v.testTask.id ∉ c.rowTasks row ∧ RunContext.contextKey c.run.id row ≠ v.contextKey := by
  have hid : v.testTask.id = slot.entry.taskId := h.tracked.sound hat _ hv
  cases h.tracked.sees hat hv with
  | own hmem =>
    rw [hid] at hmem
    exact absurd hmem hforeign
  | foreign hmem hkey => exact ⟨hmem, hkey.symm⟩

section
variable {sa : SlotAction} {e : SlotEffect} (h : Follows c row s q)
  (hw : s.workers[w]? = some (.gathering slots)) (hi : slots[i]? = some slot)
  (hmove : SlotMove lib rateLimiter w s.stores slot sa e)

include h hw hi hmove

theorem Follows.afterSlot
    (hvalues : e.stores.contexts.valuesAt (RunContext.contextKey c.run.id row) = q'.values)
    (hmerged : q'.merged = q.merged ++ (e.published.filter fun p => p.1 ∈ c.rowTasks row).map Prod.snd)
    (hsent : q'.sent = q.sent ++ e.sent.filter fun r => r.testTaskId ∈ c.rowTasks row)
    (hothers : ∀ n, n ≠ slot.entry.entryId → q'.attempts n = q.attempts n)
    (hself : ∀ attempt, e.phase.rowAttempt = some attempt →
      q'.attempts slot.entry.entryId = some attempt) :
    Follows c row (s.afterSlot w slots i slot e) q' := by
  refine h.own (.slot hw hi hmove) (slotAt?_eq hw hi) hvalues ?_ ?_ hothers fun slot' attempt hslot' hph => ?_
  · rw [mergedFor_append c row (s := s) rfl, hmerged, h.merged]
  · rw [sentFor_append c row (s := s) rfl, hsent, h.sent]
  · change (s.afterSlot w slots i slot e).slotAt? w i = some slot' at hslot'
    rw [slotAt?_afterSlot hw hi] at hslot'
    cases hslot'
    exact hself attempt hph

/-- An attempt that ends with nothing sent or merged. -/
theorem Follows.ends {result : Except Exn TaskOutcome} (hphase : e.phase = .returned result)
    (hcontexts : e.stores.contexts = s.stores.contexts) (hsent : e.sent = []) (hpub : e.published = []) :
    Follows c row (s.afterSlot w slots i slot e) q := by
  refine h.afterSlot hw hi hmove (hcontexts ▸ h.values) (by simp [hpub]) (by simp [hsent])
    (fun _ _ => rfl) fun attempt hattempt => ?_
  rw [hphase] at hattempt
  cases hattempt

/-- An attempt that goes on with nothing sent or merged. -/
theorem Follows.puts {attempt : RowAttempt} (hphase : e.phase.rowAttempt = some attempt)
    (hcontexts : e.stores.contexts = s.stores.contexts) (hsent : e.sent = []) (hpub : e.published = []) :
    Follows c row (s.afterSlot w slots i slot e) (q.put slot.entry.entryId attempt) := by
  refine h.afterSlot hw hi hmove (hcontexts ▸ h.values) ?_ ?_ ?_ fun attempt' hattempt => ?_
  · rw [hpub]
    exact (List.append_nil _).symm
  · rw [hsent]
    exact (List.append_nil _).symm
  · intro n hn
    rw [DataRow.put_attempts, if_neg hn]
  · rw [DataRow.put_attempts, if_pos rfl, ← hattempt, hphase]

end

/-- The verdict on the reply of an attempt of the row. -/
theorem Follows.judged (h : Follows c row s q) (hw : s.workers[w]? = some (.gathering slots))
    (hi : slots[i]? = some slot) (hown : slot.entry.taskId ∈ c.rowTasks row) {v : TaskView}
    {chain : Dict String String} {reply : HttpReply} {now : Timestamp} {call expireCall : Call}
    {write : RedisWrite} {o : TaskOutcome} {e : SlotEffect}
    (hmove : SlotMove lib rateLimiter w s.stores slot (.settle reply now call expireCall) e)
    (he : e = ⟨.returned ((s.stores.perform v write now call expireCall).1.map fun _ => o),
      (s.stores.perform v write now call expireCall).2, [],
      match write with
      | .merge vars => if call.tookEffect then [(v.testTask.id, vars)] else []
      | _ => []⟩)
    (hph : slot.phase = .executing v chain) (hl : s.stores.contexts.unexpired now v.contextKey) :
    Follows c row (s.afterSlot w slots i slot e)
      (match write with
      | .merge vars => if call.tookEffect then { q with merged := q.merged ++ [vars] } else q
      | _ => q) := by
  obtain ⟨hid, hkey, -⟩ := h.view_own (slotAt?_eq hw hi) hown
    (show .running v ∈ slot.attempts by simp [Slot.attempts, hph, Phase.attempts])
  have hperform := valuesAt_perform hl write call expireCall
  rw [hkey, h.values] at hperform
  have hphase : ∀ attempt, e.phase.rowAttempt ≠ some attempt := by
    subst he
    rintro _ ⟨⟩
  -- a write that changes no variables of the row
  have hsame : (s.stores.perform v write now call expireCall).2.contexts.valuesAt
        (RunContext.contextKey c.run.id row) = q.values → e.published = [] →
      Follows c row (s.afterSlot w slots i slot e) q := by
    intro hvalues hpub
    refine h.afterSlot hw hi hmove (by rw [he]; exact hvalues) (by simp [hpub]) (by simp [he])
      (fun _ _ => rfl) fun attempt ha => absurd ha (hphase attempt)
  cases write with
  | merge vars =>
    dsimp only at hperform he ⊢
    by_cases hcall : call.tookEffect
    · rw [if_pos hcall] at hperform he ⊢
      refine h.afterSlot hw hi hmove ?_ (by simp [he, hid]) (by simp [he]) (fun _ _ => rfl)
        fun attempt ha => absurd ha (hphase attempt)
      rw [he]
      exact hperform.trans (mergeAll_append q.merged vars).symm
    · rw [if_neg hcall] at hperform he ⊢
      exact hsame hperform (by rw [he])
  | nothing => exact hsame hperform (by rw [he])
  | scheduleRetry at_ => exact hsame hperform (by rw [he])

/-- The step of an attempt of the row, event by event. -/
theorem Follows.slot_own (h : Follows c row s q) {sa : SlotAction} {e : SlotEffect}
    (hw : s.workers[w]? = some (.gathering slots)) (hi : slots[i]? = some slot)
    (hmove : SlotMove lib rateLimiter w s.stores slot sa e) (hl : usesLive s (.slot w i sa))
    (hown : slot.entry.taskId ∈ c.rowTasks row) :
    Follows c row (s.afterSlot w slots i slot e) ((c.rowEvents row s (.work (.slot w i sa))).foldl
      (DataRow.next lib rateLimiter c.environment) q) := by
  have hat := slotAt?_eq hw hi
  rw [rowEvents_own hat hown]
  have hattempt : ∀ attempt, slot.phase.rowAttempt = some attempt →
      q.attempts slot.entry.entryId = some attempt := fun attempt => h.attempts hat hown
  have hview : ∀ v, slot.phase.attempts = [.running v] →
      v.testTask.id ∈ c.rowTasks row ∧ v.contextKey = RunContext.contextKey c.run.id row ∧
        v.testRun.environmentVariables = c.environment :=
    fun v hv => h.view_own hat hown (by rw [Slot.attempts, hv]; exact List.mem_singleton_self _)
  have hmove' := hmove
  cases hmove with
  | @load v hph hload =>
    simp only [Slot.rowEvent, hph, hload, Except.toOption, Option.map_some, Option.toList_some,
      List.foldl_cons, List.foldl_nil, DataRow.next_load]
    exact h.puts hw hi hmove' rfl rfl rfl rfl
  | missing hph hload =>
    simp only [Slot.rowEvent, hph, hload, Except.toOption, Option.map_none, Option.toList_none,
      List.foldl_nil]
    exact h.ends hw hi hmove' rfl rfl rfl rfl
  | @readContext v now hph =>
    obtain ⟨-, hkey, -⟩ := hview v (by rw [hph]; rfl)
    have hlive : s.stores.contexts.unexpired now v.contextKey := unexpired_of_readContext hl hat hph
    have hchain : v.chainContext now s.stores.contexts = v.rowTask.chainContext q.values := by
      rw [chainContext_eq, RunContext.getAll_eq_valuesAt hlive, ← h.values, ← hkey]
      rfl
    simp only [Slot.rowEvent, hph, Option.map_some, Option.toList_some, List.foldl_cons, List.foldl_nil,
      DataRow.next_readContext (hattempt _ (by rw [hph]; rfl))]
    rw [← hchain]
    exact h.puts hw hi hmove' rfl rfl rfl rfl
  | @refused v chain allowed now call err st' hph hpass =>
    obtain ⟨-, -, henv⟩ := hview v (by rw [hph]; rfl)
    have hlim := passRateLimit_limited lib rateLimiter v chain allowed now call s.stores
    rw [hpass] at hlim
    have hpasses : v.rowTask.passes lib rateLimiter c.environment chain allowed = false := by
      rw [← Bool.not_eq_true, passes_iff henv chain allowed now call s.stores, hpass]
      simp
    simp only [Slot.rowEvent, hph, Option.map_some, Option.toList_some, List.foldl_cons, List.foldl_nil,
      DataRow.next_send (hattempt _ (by rw [hph]; rfl)), hpasses]
    exact h.ends hw hi hmove' rfl (contexts_of_limited hlim) rfl rfl
  | @sent v chain allowed now call st' hph hpass =>
    obtain ⟨hid, -, henv⟩ := hview v (by rw [hph]; rfl)
    have hlim := passRateLimit_limited lib rateLimiter v chain allowed now call s.stores
    rw [hpass] at hlim
    have hpasses : v.rowTask.passes lib rateLimiter c.environment chain allowed = true := by
      rw [passes_iff henv chain allowed now call s.stores, hpass]
    simp only [Slot.rowEvent, hph, Option.map_some, Option.toList_some, List.foldl_cons, List.foldl_nil,
      DataRow.next_send (hattempt _ (by rw [hph]; rfl)), hpasses, if_true]
    refine h.afterSlot hw hi hmove' ?_ (List.append_nil _).symm ?_ ?_ ?_
    · rw [contexts_of_limited hlim, h.values]
      rfl
    · rw [filter_requests_own hid, requests_eq henv]
    · intro n hn
      exact (DataRow.put_attempts _).trans (if_neg hn)
    · intro attempt hphase
      exact ((DataRow.put_attempts _).trans (if_pos rfl)).trans hphase
  | @judged v chain reply now call expireCall write o hph hj =>
    obtain ⟨-, -, henv⟩ := hview v (by rw [hph]; rfl)
    simp only [Slot.rowEvent, hph, Option.map_some, Option.toList_some, List.foldl_cons, List.foldl_nil,
      DataRow.next_settle (hattempt _ (by rw [hph]; rfl)),
      extracted_eq (w := w) henv chain reply now s.stores.db, hj]
    have hjudged := h.judged hw hi hown hmove' rfl hph (unexpired_of_settle hl hat hph)
    cases write <;> exact hjudged
  | @unjudged v chain reply now call expireCall err hph hj =>
    obtain ⟨-, -, henv⟩ := hview v (by rw [hph]; rfl)
    simp only [Slot.rowEvent, hph, Option.map_some, Option.toList_some, List.foldl_cons, List.foldl_nil,
      DataRow.next_settle (hattempt _ (by rw [hph]; rfl)),
      extracted_eq (w := w) henv chain reply now s.stores.db, hj]
    exact h.ends hw hi hmove' rfl rfl rfl rfl
  | callRaised hph =>
    simp only [Slot.rowEvent, Option.map_none, Option.toList_none, List.foldl_nil]
    exact h.ends hw hi hmove' rfl rfl rfl rfl

/-- What only attempts do. -/
theorem effect_of_move (hm : Move lib rateLimiter s a s') (ha : ∀ w i sa, a ≠ .slot w i sa) :
    s'.sent = s.sent ∧ s'.published = s.published ∧ s'.stores.contexts = s.stores.contexts := by
  have hsent : s'.sent = s.sent := by
    cases hm with
    | @slot w i sa => exact absurd rfl (ha w i sa)
    | _ => rfl
  rcases published_of_move hm with ⟨hpub, hcontexts⟩ | ⟨w, i, _, _, _, _, reply, now, call, expireCall, _, _, he, -⟩
  · exact ⟨hsent, hpub, hcontexts⟩
  · exact absurd he (ha w i _)

/-- A step of the workers and sweepers. -/
theorem Follows.work (h : Follows c row s q) (hm : Move lib rateLimiter s a s') (hl : usesLive s a) :
    Follows c row s' ((c.rowEvents row s (.work a)).foldl (DataRow.next lib rateLimiter c.environment) q) := by
  by_cases ha : ∀ w i sa, a ≠ .slot w i sa
  · obtain ⟨hsent, hpub, hcontexts⟩ := effect_of_move hm ha
    rw [rowEvents_eq_nil ha]
    refine h.frame hm (by rw [hcontexts]) ?_ ?_ fun w i sa _ he => absurd he (ha w i sa)
    · rw [CreatedRun.mergedFor, hpub, CreatedRun.mergedFor]
    · rw [CreatedRun.sentFor, hsent, CreatedRun.sentFor]
  · have hm' := hm
    cases hm with
    | @slot w i sa slots slot e hw hi hmove =>
      have hat := slotAt?_eq hw hi
      by_cases hown : slot.entry.taskId ∈ c.rowTasks row
      · exact h.slot_own hw hi hmove hl hown
      · obtain ⟨hvalues, hsent, hmerged⟩ := foreign_effect hmove fun v hv => h.view_foreign hat hown hv
        rw [rowEvents_foreign hat hown]
        refine h.frame hm' hvalues ?_ ?_ fun v j sa' slot' he hat' => ?_
        · rw [mergedFor_append c row (s := s) rfl, hmerged, List.map_nil,
            List.append_nil]
        · rw [sentFor_append c row (s := s) rfl, hsent, List.append_nil]
        · cases he
          obtain rfl := Option.some.inj (hat.symm.trans hat')
          exact hown
    | _ => exact absurd (fun _ _ _ he => by cases he) ha

end

/-! The other processes. -/

namespace CreatedRun

variable (c : CreatedRun)

/-- No chain context has expired when it is used, and no other process changes what a run
and its tasks were created with: the services only insert into these two tables. -/
def Keeps (s : System) : SharedAction → Prop
  | .work a => usesLive s a
  | .api db _ => c.Kept db

/-- A platform that has not done anything for the run. -/
structure Unseen (s : System) : Prop where
  kept : c.Kept s.stores.db
  idle : ∀ x ∈ s.workers, x = .idle
  noRequest : s.sent = []
  noVariable : s.published = []
  noContext : ∀ row, s.stores.contexts.lookup (RunContext.contextKey c.run.id row) = none

variable {c} {db : Database}

/-- Deletions, and edits of anything else, the environment variables among them. -/
theorem Kept.mono {db' : Database} (h : c.Kept db) (hruns : db'.testRuns.rows ⊆ db.testRuns.rows)
    (htasks : db'.testTasks.rows ⊆ db.testTasks.rows) : c.Kept db' :=
  ⟨fun r hr => h.ids r (hruns hr), fun r hr => h.runs r (hruns hr), fun t ht => h.tasks t (htasks ht)⟩

/-- The creation of the run, and of other ones. -/
theorem Kept.view (h : c.Kept db) {tx : Transaction}
    (hruns : ∀ r ∈ tx.runs, r.id < 2 ^ 128 ∧ (r.id = c.run.id → r = c.run))
    (htasks : ∀ t ∈ tx.tasks, t ∈ c.tasks ∨ t.testRunId ≠ c.run.id ∧ t.id ∉ c.tasks.map TestTask.id) :
    c.Kept (tx.view db) where
  ids := by
    intro r hr
    rcases Table.mem_rows_foldl_set hr with hr | hr
    · exact (hruns r hr).1
    · exact h.ids r hr
  runs := by
    intro r hr hid
    rcases Table.mem_rows_foldl_set hr with hr | hr
    · rw [(hruns r hr).2 hid]
    · exact h.runs r hr hid
  tasks := by
    intro t ht hc
    rcases Table.mem_rows_foldl_set ht with ht | ht
    · rcases htasks t ht with hmem | ⟨hrun, hid⟩
      · exact ⟨t, hmem, rfl⟩
      · rcases hc with hc | hc
        · exact absurd hc hrun
        · exact absurd hc hid
    · exact h.tasks t ht hc

end CreatedRun

section
variable {lib : Libraries} {rateLimiter : Bool} {s s' : System} {c : CreatedRun} {row : Option ℕ}
  {q : DataRow}

theorem delivered_enqueue (st : Stream) (enqueued : List UUID) :
    (enqueued.foldl Stream.enqueue st).delivered = st.delivered := by
  induction enqueued generalizing st with
  | nil => rfl
  | cons t enqueued ih => exact ih (st.enqueue t)

theorem Follows.api (h : Follows c row s q) {db : Database} (hdb : c.Kept db) (enqueued : List UUID) :
    Follows c row
      { s with stores := { s.stores with db }, stream := enqueued.foldl Stream.enqueue s.stream } q where
  tracked :=
    { kept := hdb
      distinct := ⟨fun hat => by rw [delivered_enqueue]; exact h.tracked.distinct.lt hat,
        fun hat hat' => h.tracked.distinct.inj hat hat'⟩
      sound := fun hat => h.tracked.sound hat
      sees := fun hat => h.tracked.sees hat }
  values := h.values
  merged := h.merged
  sent := h.sent
  attempts := fun hat => h.attempts hat

/-- The row by itself takes each step with the platform. -/
theorem Follows.step {a : SharedAction} (h : Follows c row s q) (ha : c.Keeps s a)
    (hstep : sharedStep lib rateLimiter s a = some s') :
    Follows c row s' ((c.rowEvents row s a).foldl (DataRow.next lib rateLimiter c.environment) q) := by
  cases a with
  | work a => exact h.work (move_of_step hstep) ha
  | api db enqueued =>
    cases hstep
    exact h.api ha enqueued

theorem CreatedRun.Unseen.follows (h : c.Unseen s) (row : Option ℕ) : Follows c row s .start := by
  have hnone : ∀ {w i slot}, s.slotAt? w i ≠ some slot := by
    intro w i slot hat
    obtain ⟨slots, hw, -⟩ := slotAt?_eq_some_iff.1 hat
    cases h.idle _ (List.mem_of_getElem? hw)
  refine ⟨⟨h.kept, ⟨fun hat => absurd hat hnone, fun hat => absurd hat hnone⟩, fun hat => absurd hat hnone,
    fun hat => absurd hat hnone⟩, ?_, ?_, ?_, fun hat => absurd hat hnone⟩
  · rw [RunContext.valuesAt, h.noContext]
    rfl
  · rw [CreatedRun.mergedFor, h.noVariable]
    rfl
  · rw [CreatedRun.sentFor, h.noRequest]
    rfl

end

end ApiTesting
