import ApiTesting.Spec.Sweepers
import ApiTesting.Lib.Raises

/-! What a sweep of the retry set loses. `pop_due` takes the whole batch off the
set; the loop then puts each id on the stream or, where that raises, back on the
set. Where that raises too, the rest of the batch is left behind. -/

namespace ApiTesting

open Keyed Fallible

/-- The id is on the stream or on the set. -/
def Kept (s : RetryQueue × Stream) (t : UUID) : Prop :=
  t ∈ s.1.keys ∨ t ∈ s.2.undelivered.map StreamEntry.taskId

/-- The id keeps its score and its entries. -/
structure Untouched (s s' : RetryQueue × Stream) (t : UUID) : Prop where
  score : s'.1.lookup t = s.1.lookup t
  entries : s'.2.undelivered.filter (fun e => e.taskId = t) = s.2.undelivered.filter fun e => e.taskId = t
  pending : s'.2.pending = s.2.pending

/-- One of the two calls of the round takes effect. -/
def RoundCalls.keeps (c : RoundCalls) : Bool := c.enqueue.tookEffect || c.scheduleRetry.tookEffect

/-- The round ends the loop. -/
def RoundCalls.aborts (c : RoundCalls) : Bool := !c.enqueue.returned && !c.scheduleRetry.returned

/-- Each id is already on the stream, or its round is reached and keeps it. -/
def keepsAll (calls : UUID → RoundCalls) (st : Stream) : List UUID → Bool
  | [] => true
  | t :: rest =>
    let listed (t : UUID) : Bool := t ∈ st.undelivered.map StreamEntry.taskId
    ((calls t).keeps || listed t) &&
      if (calls t).aborts then rest.all listed else keepsAll calls st rest

/-- The state after one round. -/
def afterRound (t : UUID) (c : RoundCalls) (s : RetryQueue × Stream) : RetryQueue × Stream :=
  (if !c.enqueue.returned && c.scheduleRetry.tookEffect then s.1.scheduleRetry t c.now else s.1,
    if c.enqueue.tookEffect then s.2.enqueue t else s.2)

section
variable {calls : UUID → RoundCalls} {s : RetryQueue × Stream} {l : List UUID} {t u : UUID} {n : ℕ}

theorem moveBack_eq (t : UUID) (c : RoundCalls) (s : RetryQueue × Stream) :
    moveBack t c s = (if c.aborts then .error callError else .ok c.enqueue.returned, afterRound t c s) := by
  obtain ⟨call, call', now⟩ := c
  cases call <;> cases call' <;> rfl

/-- The loop ends where a round does not return, and goes on otherwise. -/
theorem moveAllBack_cons (t : UUID) (l : List UUID) (n : ℕ) (s : RetryQueue × Stream) :
    ((moveAllBack calls (t :: l) n) s).2 =
      if (calls t).aborts then afterRound t (calls t) s
      else ((moveAllBack calls l (if (calls t).enqueue.returned then n + 1 else n))
        (afterRound t (calls t) s)).2 := by
  have h := moveBack_eq t (calls t) s
  rw [moveAllBack]
  by_cases ha : (calls t).aborts
  · rw [if_pos ha] at h ⊢
    rw [bind_of_error _ h]
  · rw [if_neg ha] at h ⊢
    rw [bind_of_ok _ h]

theorem untouched_afterRound (h : u ≠ t) (c : RoundCalls) : Untouched s (afterRound t c s) u := by
  have hne : ¬ t = u := fun he => h he.symm
  refine ⟨?_, ?_, ?_⟩
  · unfold afterRound
    dsimp only
    split
    · rw [RetryQueue.scheduleRetry, Dict.lookup_put, if_neg h]
    · rfl
  · unfold afterRound
    dsimp only
    split
    · rw [Stream.undelivered_enqueue, List.filter_append]
      simp [hne]
    · rfl
  · unfold afterRound
    dsimp only
    split <;> rfl

theorem Untouched.trans {s s' s'' : RetryQueue × Stream} (h : Untouched s s' u) (h' : Untouched s' s'' u) :
    Untouched s s'' u :=
  ⟨h'.score.trans h.score, h'.entries.trans h.entries, h'.pending.trans h.pending⟩

theorem Untouched.listed_iff {s s' : RetryQueue × Stream} (h : Untouched s s' u) :
    u ∈ s'.2.undelivered.map StreamEntry.taskId ↔ u ∈ s.2.undelivered.map StreamEntry.taskId := by
  have hmem : ∀ st : Stream, u ∈ st.undelivered.map StreamEntry.taskId ↔
      st.undelivered.filter (fun e => e.taskId = u) ≠ [] := by
    intro st
    simp [List.mem_map, List.filter_eq_nil_iff]
  rw [hmem, hmem, h.entries]

theorem Untouched.mem_keys_iff {s s' : RetryQueue × Stream} (h : Untouched s s' u) :
    u ∈ s'.1.keys ↔ u ∈ s.1.keys := by
  have hkey : ∀ q : RetryQueue, u ∈ q.keys ↔ (q.lookup u).isSome := by
    intro q
    rw [← Table.get?_isSome_iff, Dict.lookup, Option.isSome_map]
  rw [hkey, hkey, h.score]

theorem Untouched.kept_iff {s s' : RetryQueue × Stream} (h : Untouched s s' u) :
    Kept s' u ↔ Kept s u := by
  rw [Kept, Kept, h.listed_iff, h.mem_keys_iff]

/-- The loop does nothing to the ids it is not given. -/
theorem untouched_moveAllBack (h : u ∉ l) (n : ℕ) (s : RetryQueue × Stream) :
    Untouched s (moveAllBack calls l n s).2 u := by
  induction l generalizing n s with
  | nil => exact ⟨rfl, rfl, rfl⟩
  | cons t l ih =>
    rw [List.mem_cons, not_or] at h
    have hround : Untouched s (afterRound t (calls t) s) u := untouched_afterRound h.1 (calls t)
    rw [moveAllBack_cons]
    split
    · exact hround
    · exact hround.trans (ih h.2 _ _)

/-- After its round an id is where a call that took effect has put it. -/
theorem kept_afterRound (h : t ∉ s.1.keys) (c : RoundCalls) :
    Kept (afterRound t c s) t ↔ c.keeps ∨ t ∈ s.2.undelivered.map StreamEntry.taskId := by
  obtain ⟨call, call', now⟩ := c
  cases call <;> cases call' <;>
    simp [Kept, afterRound, RoundCalls.keeps, Call.returned, Call.tookEffect, Stream.undelivered_enqueue,
      RetryQueue.mem_keys_scheduleRetry, h]

theorem keepsAll_congr {st st' : Stream} (h : ∀ t ∈ l, t ∈ st'.undelivered.map StreamEntry.taskId ↔
    t ∈ st.undelivered.map StreamEntry.taskId) : keepsAll calls st' l = keepsAll calls st l := by
  induction l with
  | nil => rfl
  | cons t l ih =>
    have hrest : ∀ t ∈ l, t ∈ st'.undelivered.map StreamEntry.taskId ↔
        t ∈ st.undelivered.map StreamEntry.taskId := fun t ht => h t (List.mem_cons_of_mem _ ht)
    have hall : l.all (fun t => t ∈ st'.undelivered.map StreamEntry.taskId) =
        l.all fun t => t ∈ st.undelivered.map StreamEntry.taskId := by
      rw [Bool.eq_iff_iff]
      simp only [List.all_eq_true, decide_eq_true_eq]
      exact forall₂_congr hrest
    simp only [keepsAll, ih hrest, hall, h t (by simp)]

/-- The loop over popped ids keeps them all just when each round that matters does. -/
theorem moveAllBack_kept_iff (calls : UUID → RoundCalls) (s : RetryQueue × Stream) (hnd : l.Nodup)
    (hpop : ∀ t ∈ l, t ∉ s.1.keys) (n : ℕ) :
    (∀ t ∈ l, Kept (moveAllBack calls l n s).2 t) ↔ keepsAll calls s.2 l := by
  induction l generalizing s n with
  | nil => simp [keepsAll]
  | cons t l ih =>
    obtain ⟨ht, hnd⟩ := List.nodup_cons.1 hnd
    have hother : ∀ u ∈ l, Untouched s (afterRound t (calls t) s) u :=
      fun u hu => untouched_afterRound (ne_of_mem_of_not_mem hu ht) _
    have hkept := kept_afterRound (hpop t (by simp)) (calls t)
    have hrest : ∀ u ∈ l, Kept (afterRound t (calls t) s) u ↔ u ∈ s.2.undelivered.map StreamEntry.taskId := by
      intro u hu
      rw [(hother u hu).kept_iff, Kept, or_iff_right (hpop u (List.mem_cons_of_mem _ hu))]
    simp only [List.forall_mem_cons, moveAllBack_cons, keepsAll, Bool.and_eq_true, Bool.or_eq_true,
      decide_eq_true_eq]
    by_cases ha : (calls t).aborts
    · simp only [ha, if_true, List.all_eq_true, decide_eq_true_eq]
      exact and_congr hkept (forall₂_congr hrest)
    · have hpop' : ∀ u ∈ l, u ∉ (afterRound t (calls t) s).1.keys := by
        intro u hu
        rw [(hother u hu).mem_keys_iff]
        exact hpop u (List.mem_cons_of_mem _ hu)
      simp only [ha, if_false, Bool.false_eq_true]
      rw [(untouched_moveAllBack ht _ _).kept_iff, hkept, ih _ hnd hpop']
      refine and_congr_right fun _ => ?_
      rw [keepsAll_congr fun u hu => (hother u hu).listed_iff]

/-- What a sweep must not lose: each popped id is on the stream or back on the
set, and no other id is touched. -/
structure Lossless (now : Timestamp) (limit : ℕ) (s s' : RetryQueue × Stream) : Prop where
  popped : ∀ t ∈ s.1.due now limit, Kept s' t
  others : ∀ t, t ∉ s.1.due now limit → Untouched s s' t

theorem sweepOnce_state (now : Timestamp) (limit : ℕ) (s : RetryQueue × Stream) :
    (sweepOnce now limit calls s).2 =
      (moveAllBack calls (s.1.due now limit) 0 (s.1.remove (s.1.due now limit), s.2)).2 := by
  have hpop : SweepM.popDue now limit s =
      (.ok (s.1.due now limit), (s.1.remove (s.1.due now limit), s.2)) := rfl
  rw [sweepOnce, bind_of_ok _ hpop]

theorem untouched_remove {ids : List UUID} (h : t ∉ ids) : Untouched s (s.1.remove ids, s.2) t := by
  refine ⟨?_, rfl, rfl⟩
  rw [Dict.lookup, RetryQueue.remove, Table.get?_filter]
  rcases hq : s.1.get? t with _ | p
  · rw [Dict.lookup, hq]
    rfl
  · have hid : p.1 = t := (Table.get?_eq_some_iff.1 hq).2
    rw [Dict.lookup, hq, Option.filter_some, if_pos (by simpa [hid] using h)]

/-- A sweep loses nothing just when every popped id is on the stream already, or
its round is reached and one of the two calls of the round takes effect. -/
theorem sweepOnce_lossless_iff (now : Timestamp) (limit : ℕ) (calls : UUID → RoundCalls)
    (s : RetryQueue × Stream) :
    Lossless now limit s (sweepOnce now limit calls s).2 ↔ keepsAll calls s.2 (s.1.due now limit) := by
  have hnd := s.1.nodup_due now limit
  have hpop : ∀ t ∈ s.1.due now limit, t ∉ (s.1.remove (s.1.due now limit)).keys :=
    fun t ht hk => (RetryQueue.mem_keys_remove.1 hk).2 ht
  have hiff := moveAllBack_kept_iff calls (s.1.remove (s.1.due now limit), s.2) hnd hpop 0
  rw [sweepOnce_state]
  constructor
  · intro h
    exact hiff.1 h.popped
  · intro h
    refine ⟨hiff.2 h, fun t ht => ?_⟩
    exact (untouched_remove ht).trans (untouched_moveAllBack ht _ _)

end

/-- Two members that are due, and Redis down for the first round. -/
def twoDue : RetryQueue × Stream := ((RetryQueue.scheduleRetry .empty 0 1).scheduleRetry 1 2, .empty)

def redisDown (t : UUID) : RoundCalls :=
  if t = 0 then ⟨.raisedBefore, .raisedBefore, 5⟩ else ⟨.ok, .ok, 5⟩

/-- Both are lost, the second without having been tried. -/
theorem not_lossless_redisDown : ¬ Lossless 5 100 twoDue (sweepOnce 5 100 redisDown twoDue).2 ∧
    ¬ Kept (sweepOnce 5 100 redisDown twoDue).2 0 ∧ ¬ Kept (sweepOnce 5 100 redisDown twoDue).2 1 := by
  have hkeys : (sweepOnce 5 100 redisDown twoDue).2.1.keys = [] := by rfl
  have hstream : (sweepOnce 5 100 redisDown twoDue).2.2.undelivered = [] := by rfl
  have hlost : ∀ t, ¬ Kept (sweepOnce 5 100 redisDown twoDue).2 t := by
    intro t
    simp [Kept, hkeys, hstream]
  have hdue : twoDue.1.due 5 100 = [0, 1] := by decide
  refine ⟨fun h => hlost 0 (h.popped 0 ?_), hlost 0, hlost 1⟩
  rw [hdue]
  simp

end ApiTesting
