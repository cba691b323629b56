import ApiTesting.Proofs.Attempts

/-! The retry set and the hand of the retry sweeper. Only an attempt puts a task
there that was not there before. -/

namespace ApiTesting

open Keyed

/-- The places on the retry set and in the hand of the sweeper that `t` takes up. -/
def System.scheduled (s : System) (t : UUID) : ℕ :=
  s.stores.retryPending.keys.count t + s.retrySweeper.inHand.count t

/-- What the sweeper is about to take off the set is on it. -/
def RangedIn (s : System) : Prop :=
  ∀ due, s.retrySweeper = .ranged due → due.Nodup ∧ ∀ t ∈ due, t ∈ s.stores.retryPending.keys

theorem count_keys (q : RetryQueue) (t : UUID) : q.keys.count t = if t ∈ q.keys then 1 else 0 :=
  q.nodup_keys.count

section
variable {lib : Libraries} {rateLimiter : Bool} {s s' : System} {a : Action}

/-- A step of an attempt leaves the set as it is, or adds the task of the attempt. -/
theorem retryPending_of_slotMove {w : WorkerId} {st : Stores} {slot : Slot} {sa : SlotAction}
    {e : SlotEffect} (h : SlotMove lib rateLimiter w st slot sa e) :
    e.stores.retryPending = st.retryPending ∨
      ∃ v at_, .running v ∈ slot.attempts ∧
        e.stores.retryPending = st.retryPending.scheduleRetry v.testTask.id at_ := by
  cases h with
  | @refused v chain allowed now call err st' hph hpass =>
    have hlim := passRateLimit_limited lib rateLimiter v chain allowed now call st
    rw [hpass] at hlim
    have hmem : .running v ∈ slot.attempts := by simp [Slot.attempts, hph, Phase.attempts]
    cases hlim with
    | deferred => exact .inr ⟨v, _, hmem, rfl⟩
    | raised _ hst =>
      rcases hst with rfl | ⟨at_, rfl⟩
      · exact .inl rfl
      · exact .inr ⟨v, at_, hmem, rfl⟩
  | @sent v chain allowed now call st' hph hpass =>
    have hlim := passRateLimit_limited lib rateLimiter v chain allowed now call st
    rw [hpass] at hlim
    cases hlim
    exact .inl rfl
  | @judged v chain reply now call expireCall write o hph hj =>
    have hmem : .running v ∈ slot.attempts := by simp [Slot.attempts, hph, Phase.attempts]
    simp only [Stores.perform_retryPending]
    cases write with
    | scheduleRetry at_ =>
      dsimp only
      split
      · exact .inr ⟨v, at_, hmem, rfl⟩
      · exact .inl rfl
    | _ => exact .inl rfl
  | _ => exact .inl rfl

theorem mem_keys_of_slotMove {w : WorkerId} {st : Stores} {slot : Slot} {sa : SlotAction}
    {e : SlotEffect} (h : SlotMove lib rateLimiter w st slot sa e) {t : UUID}
    (ht : t ∈ st.retryPending.keys) : t ∈ e.stores.retryPending.keys := by
  rcases retryPending_of_slotMove h with he | ⟨v, at_, -, he⟩
  · rwa [he]
  · rw [he, RetryQueue.mem_keys_scheduleRetry]
    exact .inr ht

theorem RangedIn.step (h : RangedIn s) (hm : Move lib rateLimiter s a s') : RangedIn s' := by
  intro due hdue
  cases hm with
  | slot _ _ hmove =>
    obtain ⟨hnd, hmem⟩ := h due hdue
    exact ⟨hnd, fun t ht => mem_keys_of_slotMove hmove (hmem t ht)⟩
  | @retryRange now limit _ =>
    dsimp only at hdue
    split at hdue
    · cases hdue
    · cases hdue
      exact ⟨RetryQueue.nodup_due _ now limit, fun t ht => RetryQueue.mem_keys_of_mem_due ht⟩
  | retryRemove => cases hdue
  | @retryEnqueue call t rest _ =>
    dsimp only at hdue
    split at hdue <;> cases hdue
  | retryReschedule => cases hdue
  | _ => exact h due hdue

theorem count_keys_scheduleRetry_le (q : RetryQueue) (t u : UUID) (at_ : Timestamp) :
    (q.scheduleRetry u at_).keys.count t ≤ q.keys.count t + if u = t then 1 else 0 := by
  rw [count_keys, count_keys]
  simp only [RetryQueue.mem_keys_scheduleRetry]
  by_cases h : t = u
  · subst h
    simp
  · have h' : ¬ u = t := fun he => h he.symm
    simp [h, h']

/-- The sweeper moves ids between the set and its hand, or drops them. -/
theorem scheduled_le_of_move (h : RangedIn s) (hm : Move lib rateLimiter s a s')
    (ha : ∀ w i sa, a ≠ .slot w i sa) (t : UUID) : s'.scheduled t ≤ s.scheduled t := by
  cases hm with
  | slot => exact absurd rfl (ha _ _ _)
  | @retryRange now limit hs =>
    simp only [System.scheduled, hs]
    split <;> rfl
  | @retryRemove call due hs =>
    obtain ⟨hnd, hmem⟩ := h due hs
    have hcount : (s.stores.retryPending.remove due).keys.count t + due.count t ≤
        s.stores.retryPending.keys.count t := by
      rw [count_keys, count_keys, hnd.count]
      simp only [RetryQueue.mem_keys_remove]
      by_cases ht : t ∈ due
      · simp [ht, hmem t ht]
      · simp [ht]
    simp only [System.scheduled, hs, RetrySweeper.inHand, List.count_nil]
    cases call
    · exact hcount
    · exact le_refl _
    · simp only [Call.tookEffect, Call.returned, if_true, List.count_nil, Bool.false_eq_true, if_false]
      omega
  | @retryEnqueue call u rest hs =>
    have hcons : (u :: rest).count t = rest.count t + if u == t then 1 else 0 := List.count_cons
    cases call <;> simp only [System.scheduled, hs, RetrySweeper.inHand, Call.returned, if_true,
      Bool.false_eq_true, if_false] <;> omega
  | @retryReschedule now call u rest hs =>
    have hle := count_keys_scheduleRetry_le s.stores.retryPending t u now
    simp only [System.scheduled, hs, RetrySweeper.inHand, Stores.scheduleRetry_retryPending,
      List.count_cons, beq_iff_eq]
    cases call <;> simp only [Call.tookEffect, Call.returned, if_true, Bool.false_eq_true, if_false,
      List.count_nil] <;> omega
  | _ => exact le_refl _

end

end ApiTesting
