import ApiTesting.Lib.Machine

/-! What an observer records along a run, and a second machine that is driven by the record
alone. A machine that follows every step of the first one says all there is to know about
what the observer can tell: two runs with one record look the same to it. -/

namespace Machine

variable {σ α ε ρ : Type*} {step : σ → α → Option σ} {obs : σ → α → List ε} {next : ρ → ε → ρ}
  {s₀ s : σ} {as bs : List α}

/-- The events recorded along the actions taken from a state. -/
def trace (step : σ → α → Option σ) (obs : σ → α → List ε) (s : σ) : List α → List ε
  | [] => []
  | a :: as => obs s a ++ ((step s a).map (trace step obs · as)).getD []

theorem trace_append (h : Run step s₀ as s) :
    trace step obs s₀ (as ++ bs) = trace step obs s₀ as ++ trace step obs s bs := by
  induction as generalizing s₀ with
  | nil =>
    obtain rfl := run_nil_iff.1 h
    rfl
  | cons a as ih =>
    rw [← List.singleton_append] at h
    obtain ⟨u, hu, hrest⟩ := h.split
    obtain ⟨v, hv, hstep⟩ := run_snoc_iff.1 (by simpa using hu : Run step s₀ ([] ++ [a]) u)
    obtain rfl := run_nil_iff.1 hv
    simp only [List.cons_append, trace, hstep, Option.map_some, Option.getD_some, List.append_assoc,
      ih hrest]

theorem trace_snoc (h : Run step s₀ as s) (a : α) :
    trace step obs s₀ (as ++ [a]) = trace step obs s₀ as ++ obs s a := by
  rw [trace_append h]
  cases hs : step s a <;> simp [trace, hs]

/-- The simulation rule: the second machine follows a run on its record. -/
theorem Run.simulates {R : σ → ρ → Prop} {P : σ → α → Prop} {q₀ : ρ} (h : Run step s₀ as s)
    (hp : Each step P s₀ as) (h0 : R s₀ q₀)
    (hs : ∀ s a s' q, R s q → P s a → step s a = some s' → R s' ((obs s a).foldl next q)) :
    R s ((trace step obs s₀ as).foldl next q₀) := by
  induction h with
  | nil => exact h0
  | snoc hr hstep ih =>
    obtain ⟨hp, ha⟩ := (each_snoc_iff hr).1 hp
    rw [trace_snoc hr, List.foldl_append]
    exact hs _ _ _ _ (ih hp) ha hstep

/-- Two records that differ in the names `f` gives the events lead to states that are alike,
if every event does. -/
theorem foldl_map_alike {alike : ρ → ρ → Prop} {f : ε → ε}
    (hf : ∀ q q' e, alike q q' → alike (next q e) (next q' (f e))) (events : List ε) {q q' : ρ}
    (h : alike q q') : alike (events.foldl next q) ((events.map f).foldl next q') := by
  induction events generalizing q q' with
  | nil => exact h
  | cons e events ih => exact ih (hf q q' e h)

end Machine
