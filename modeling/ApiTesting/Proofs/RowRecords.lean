import ApiTesting.Lib.Traces
import ApiTesting.Spec.DataRow

/-! What the record of a data row tells: where each request comes from, and that the names
of the deliveries are nothing to it. -/

namespace ApiTesting

open Keyed Machine

/-- An attempt of the record has read the task. -/
def Loaded (events : List (ℕ × RowEvent)) (t : RowTask) : Prop := ∃ n, (n, .load t) ∈ events

/-- The data of the task over the variables of the row at some time. -/
def ReadFrom (merged : List (Dict String String)) (t : RowTask) (chain : Dict String String) : Prop :=
  ∃ before, before <+: merged ∧ chain = t.chainContext (mergeAll before)

def RowAttempt.explained (events : List (ℕ × RowEvent)) (merged : List (Dict String String)) :
    RowAttempt → Prop
  | .loaded t => Loaded events t
  | .resolved t chain => Loaded events t ∧ ReadFrom merged t chain
  | .executing t chain => Loaded events t ∧ ReadFrom merged t chain

/-- Everything an attempt has and everything that was sent comes from what was read. -/
structure Explained (environment : Dict String String) (events : List (ℕ × RowEvent)) (q : DataRow) :
    Prop where
  attempts : ∀ {n attempt}, q.attempts n = some attempt → attempt.explained events q.merged
  sent : ∀ r ∈ q.sent, ∃ t chain, Loaded events t ∧ ReadFrom q.merged t chain ∧
    r ∈ t.requests environment chain

section
variable {lib : Libraries} {rateLimiter : Bool} {environment : Dict String String}
  {events : List (ℕ × RowEvent)} {merged : List (Dict String String)} {q : DataRow} {t : RowTask}
  {chain : Dict String String} {attempt : RowAttempt}

theorem Loaded.snoc (h : Loaded events t) (e : ℕ × RowEvent) : Loaded (events ++ [e]) t := by
  obtain ⟨n, hn⟩ := h
  exact ⟨n, List.mem_append_left _ hn⟩

theorem ReadFrom.snoc (h : ReadFrom merged t chain) (vars : Dict String String) :
    ReadFrom (merged ++ [vars]) t chain := by
  obtain ⟨before, hp, rfl⟩ := h
  exact ⟨before, hp.trans (List.prefix_append _ _), rfl⟩

theorem explained_snoc (h : attempt.explained events merged) (e : ℕ × RowEvent) :
    attempt.explained (events ++ [e]) merged := by
  cases attempt with
  | loaded t => exact h.snoc e
  | resolved t chain => exact ⟨h.1.snoc e, h.2⟩
  | executing t chain => exact ⟨h.1.snoc e, h.2⟩

theorem explained_merge (h : attempt.explained events merged) (vars : Dict String String) :
    attempt.explained events (merged ++ [vars]) := by
  cases attempt with
  | loaded t => exact h
  | resolved t chain => exact ⟨h.1, h.2.snoc vars⟩
  | executing t chain => exact ⟨h.1, h.2.snoc vars⟩

theorem Explained.snoc (h : Explained environment events q) (e : ℕ × RowEvent) :
    Explained environment (events ++ [e]) q where
  attempts := fun ha => explained_snoc (h.attempts ha) e
  sent := by
    intro r hr
    obtain ⟨t, chain, ht, hchain, hmem⟩ := h.sent r hr
    exact ⟨t, chain, ht.snoc e, hchain, hmem⟩

theorem Explained.put (h : Explained environment events q) (ha : attempt.explained events q.merged)
    (n : ℕ) : Explained environment events (q.put n attempt) where
  attempts := by
    intro m other hm
    rw [DataRow.put_attempts] at hm
    split at hm
    · cases hm
      exact ha
    · exact h.attempts hm
  sent := h.sent

theorem Explained.merge (h : Explained environment events q) (vars : Dict String String) :
    Explained environment events { q with merged := q.merged ++ [vars] } where
  attempts := fun ha => explained_merge (h.attempts ha) vars
  sent := by
    intro r hr
    obtain ⟨t, chain, ht, hchain, hmem⟩ := h.sent r hr
    exact ⟨t, chain, ht, hchain.snoc vars, hmem⟩

theorem Explained.send (h : Explained environment events q) (ht : Loaded events t)
    (hchain : ReadFrom q.merged t chain) :
    Explained environment events { q with sent := q.sent ++ t.requests environment chain } where
  attempts := h.attempts
  sent := by
    intro r hr
    rcases List.mem_append.1 hr with hr | hr
    · exact h.sent r hr
    · exact ⟨t, chain, ht, hchain, hr⟩

theorem Explained.next (h : Explained environment events q) (e : ℕ × RowEvent) :
    Explained environment (events ++ [e]) (q.next lib rateLimiter environment e) := by
  obtain ⟨n, ev⟩ := e
  have hsnoc := h.snoc (n, ev)
  unfold DataRow.next
  split
  · rename_i t hev
    obtain rfl : ev = .load t := hev
    have hload : RowAttempt.explained (events ++ [(n, .load t)]) q.merged (.loaded t) :=
      ⟨n, List.mem_append_right _ (List.mem_singleton_self _)⟩
    exact hsnoc.put hload n
  · rename_i t _ ha
    have hread : RowAttempt.explained (events ++ [(n, ev)]) q.merged (.resolved t (t.chainContext q.values)) :=
      ⟨hsnoc.attempts ha, q.merged, List.prefix_refl _, rfl⟩
    exact hsnoc.put hread n
  · rename_i allowed t chain _ ha
    have hresolved := hsnoc.attempts ha
    have hexecuting : RowAttempt.explained (events ++ [(n, ev)]) q.merged (.executing t chain) := hresolved
    split
    · exact (hsnoc.put hexecuting n).send hresolved.1 hresolved.2
    · exact hsnoc
  · split
    · split
      · exact hsnoc.merge _
      · exact hsnoc
    · exact hsnoc
  · exact hsnoc

theorem explained_after (events : List (ℕ × RowEvent)) :
    Explained environment events (DataRow.after lib rateLimiter environment events) := by
  induction events using List.reverseRecOn with
  | nil =>
    refine ⟨?_, ?_⟩
    · rintro _ _ ⟨⟩
    · intro r hr
      cases hr
  | append_singleton events e ih =>
    rw [DataRow.after, List.foldl_append]
    exact ih.next e

/-! The names of the deliveries. -/

/-- The same row, whose attempts go by other names. -/
structure Renamed (f : ℕ → ℕ) (q q' : DataRow) : Prop where
  attempts : ∀ n, q'.attempts (f n) = q.attempts n
  merged : q'.merged = q.merged
  sent : q'.sent = q.sent

variable {f : ℕ → ℕ} {q' : DataRow}

theorem Renamed.put (h : Renamed f q q') (hf : f.Injective) (n : ℕ) (attempt : RowAttempt) :
    Renamed f (q.put n attempt) (q'.put (f n) attempt) where
  attempts := by
    intro m
    rw [DataRow.put_attempts, DataRow.put_attempts, h.attempts]
    simp only [hf.eq_iff]
  merged := h.merged
  sent := h.sent

theorem Renamed.next (h : Renamed f q q') (hf : f.Injective) (e : ℕ × RowEvent) :
    Renamed f (q.next lib rateLimiter environment e)
      (q'.next lib rateLimiter environment (Prod.map f id e)) := by
  obtain ⟨n, ev⟩ := e
  have hvalues : q'.values = q.values := by rw [DataRow.values, h.merged, DataRow.values]
  unfold DataRow.next
  simp only [Prod.map_apply, id_eq, h.attempts]
  split
  · exact h.put hf n _
  · rw [hvalues]
    exact h.put hf n _
  · rename_i allowed t chain _
    split
    · have hput := h.put hf n (.executing t chain)
      exact ⟨hput.attempts, hput.merged, by rw [h.sent]⟩
    · exact h
  · split
    · split
      · exact ⟨h.attempts, by rw [h.merged], h.sent⟩
      · exact h
    · exact h
  · exact h

theorem renamed_after (hf : f.Injective) (events : List (ℕ × RowEvent)) :
    Renamed f (DataRow.after lib rateLimiter environment events)
      (DataRow.after lib rateLimiter environment (events.map (Prod.map f id))) :=
  foldl_map_alike (fun _ _ e h => h.next hf e) events ⟨fun _ => rfl, rfl, rfl⟩

end

end ApiTesting
