import ApiTesting.Proofs.Attempts

/-! The chain contexts: what a run or a row of it has stored. As long as no hash expires, a
merge updates the values at its key, and nothing else changes them. -/

namespace ApiTesting

open Keyed

namespace RunContext

variable {c : RunContext} {now : Timestamp} {key j : String}

/-- The hash at the key, if there is one, is not past its time to live. -/
def unexpired (c : RunContext) (now : Timestamp) (key : String) : Bool :=
  (c.lookup key).all fun h => ApiTesting.unexpired now h.expiresAt

theorem live_of_unexpired (h : c.unexpired now key) : c.live now key = c.lookup key := by
  unfold unexpired at h
  unfold live
  rcases hl : c.lookup key with _ | hash
  · rfl
  · rw [hl] at h
    rw [Option.filter_some, if_pos (by simpa using h)]

theorem getAll_eq_valuesAt {run : UUID} {row : Option ℕ} (h : c.unexpired now (contextKey run row)) :
    c.getAll now run row = c.valuesAt (contextKey run row) := by
  unfold getAll valuesAt
  rw [live_of_unexpired h]
  cases c.lookup (contextKey run row) <;> rfl

theorem valuesAt_put (hash : ContextHash) :
    valuesAt (c.put key hash) j = if j = key then hash.values else c.valuesAt j := by
  unfold valuesAt
  rw [Dict.lookup_put]
  by_cases hj : j = key <;> simp [hj]

theorem valuesAt_expire : valuesAt (c.expire now key) j = c.valuesAt j := by
  unfold expire
  rcases hl : c.live now key with _ | hash
  · rfl
  · have hlook : c.lookup key = some hash := (Option.filter_eq_some_iff.1 hl).1
    rw [valuesAt_put]
    split
    · rename_i hj
      simp [valuesAt, hj, hlook]
    · rfl

theorem valuesAt_hset_ne (h : j ≠ key) (vars : Dict String String) :
    valuesAt (c.hset now key vars) j = c.valuesAt j := by
  unfold hset
  split <;> rw [valuesAt_put, if_neg h]

theorem valuesAt_hset (h : c.unexpired now key) (vars : Dict String String) :
    valuesAt (c.hset now key vars) key = (c.valuesAt key).update vars := by
  unfold hset
  rw [live_of_unexpired h]
  rcases hl : c.lookup key with _ | hash
  · simp only [valuesAt_put, if_true]
    simp [valuesAt, hl]
  · simp only [valuesAt_put, if_true]
    simp [valuesAt, hl]

end RunContext

/-- The key an attempt reads and writes its variables under. -/
def TaskView.contextKey (v : TaskView) : String := RunContext.contextKey v.testRun.id v.testTask.dataRowIndex

/-- Only a merge that takes effect changes values, and only those at the key of its attempt. -/
theorem valuesAt_perform_ne {st : Stores} {v : TaskView} {key : String} (h : key ≠ v.contextKey)
    (write : RedisWrite) (now : Timestamp) (call expireCall : Call) :
    (st.perform v write now call expireCall).2.contexts.valuesAt key = st.contexts.valuesAt key := by
  cases write with
  | nothing => rfl
  | scheduleRetry at_ => simp [Stores.perform]
  | merge vars =>
    have hset : RunContext.valuesAt (st.contexts.hset now v.contextKey vars) key =
        st.contexts.valuesAt key := RunContext.valuesAt_hset_ne h vars
    cases call <;> cases expireCall <;>
      simp [Stores.perform, Call.tookEffect, Call.returned, RunContext.valuesAt_expire] <;> exact hset

theorem valuesAt_perform {st : Stores} {v : TaskView} {now : Timestamp}
    (h : st.contexts.unexpired now v.contextKey) (write : RedisWrite) (call expireCall : Call) :
    (st.perform v write now call expireCall).2.contexts.valuesAt v.contextKey =
      match write with
      | .merge vars =>
        if call.tookEffect then (st.contexts.valuesAt v.contextKey).update vars
        else st.contexts.valuesAt v.contextKey
      | _ => st.contexts.valuesAt v.contextKey := by
  cases write with
  | nothing => rfl
  | scheduleRetry at_ => simp [Stores.perform]
  | merge vars =>
    have hset := RunContext.valuesAt_hset h vars
    cases call <;> cases expireCall <;>
      simp [Stores.perform, Call.tookEffect, Call.returned, RunContext.valuesAt_expire] <;> exact hset

theorem contexts_of_limited {v : TaskView} {st : Stores} {r : Except Exn Unit × Stores}
    (h : Limited v st r) : r.2.contexts = st.contexts := by
  cases h with
  | passed => rfl
  | deferred => rfl
  | raised _ hst =>
    rcases hst with rfl | ⟨at_, rfl⟩
    · rfl
    · rfl

section
variable {lib : Libraries} {rateLimiter : Bool} {s s' : System} {a : Action}

/-- Variables are published by an attempt that is judged, and in no other step. -/
theorem published_of_move (h : Move lib rateLimiter s a s') :
    (s'.published = s.published ∧ s'.stores.contexts = s.stores.contexts) ∨
    ∃ w i slots slot v chain reply now call expireCall write o,
      a = .slot w i (.settle reply now call expireCall) ∧ s.workers[w]? = some (.gathering slots) ∧
      slots[i]? = some slot ∧ slot.phase = .executing v chain ∧
      judgeReply lib w v chain reply now s.stores.db = .ok (write, o) ∧
      s'.published = s.published ++
        (match write with
        | .merge vars => if call.tookEffect then [(v.testTask.id, vars)] else []
        | _ => []) ∧
      s'.stores.contexts = (s.stores.perform v write now call expireCall).2.contexts := by
  cases h with
  | @slot w i sa slots slot e hw hi hmove =>
    cases hmove with
    | @judged v chain reply now call expireCall write o hph hj =>
      exact .inr ⟨w, i, slots, slot, v, chain, reply, now, call, expireCall, write, o, rfl, hw, hi, hph,
        hj, rfl, rfl⟩
    | @refused v chain allowed now call err st' hph hpass =>
      have hlim := passRateLimit_limited lib rateLimiter v chain allowed now call s.stores
      rw [hpass] at hlim
      exact .inl ⟨List.append_nil _, contexts_of_limited hlim⟩
    | @sent v chain allowed now call st' hph hpass =>
      have hlim := passRateLimit_limited lib rateLimiter v chain allowed now call s.stores
      rw [hpass] at hlim
      exact .inl ⟨List.append_nil _, contexts_of_limited hlim⟩
    | _ => exact .inl ⟨List.append_nil _, rfl⟩
  | retryRemove =>
    refine .inl ⟨rfl, ?_⟩
    dsimp only
    split <;> rfl
  | retryReschedule => exact .inl ⟨rfl, by simp⟩
  | _ => exact .inl ⟨rfl, rfl⟩

end

end ApiTesting
