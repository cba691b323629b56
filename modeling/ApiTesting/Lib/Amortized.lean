import ApiTesting.Lib.Machine
import Mathlib.Algebra.Order.Group.Nat

/-! Amounts added up along a run, and the potential rule: where each step pays for its cost
with the potential it takes off, or with what it is credited, the potential at the start and
the credits pay for the whole run. -/

namespace Machine

variable {σ α : Type*} {step : σ → α → Option σ} {s₀ s s' : σ} {as bs : List α}

/-- What `f` adds up to over the steps taken from a state. -/
def total (step : σ → α → Option σ) (f : σ → α → ℕ) (s : σ) : List α → ℕ
  | [] => 0
  | a :: as => f s a + ((step s a).map (total step f · as)).getD 0

section
variable {f : σ → α → ℕ}

theorem total_append (h : Run step s₀ as s) : total step f s₀ (as ++ bs) = total step f s₀ as + total step f s bs := by
  induction as generalizing s₀ with
  | nil =>
    obtain rfl := run_nil_iff.1 h
    simp [total]
  | cons a as ih =>
    rw [← List.singleton_append] at h
    obtain ⟨u, hu, hrest⟩ := h.split
    obtain ⟨v, hv, hstep⟩ := run_snoc_iff.1 (by simpa using hu : Run step s₀ ([] ++ [a]) u)
    obtain rfl := run_nil_iff.1 hv
    simp only [List.cons_append, total, hstep, Option.map_some, Option.getD_some, ih hrest, Nat.add_assoc]

theorem total_snoc (h : Run step s₀ as s) (a : α) : total step f s₀ (as ++ [a]) = total step f s₀ as + f s a := by
  rw [total_append h]
  cases hs : step s a <;> simp [total, hs]

end

@[simp] theorem total_zero (s : σ) (as : List α) : total step (fun _ _ => 0) s as = 0 := by
  induction as generalizing s with
  | nil => rfl
  | cons a as ih =>
    rw [total, Nat.zero_add]
    cases step s a with
    | none => rfl
    | some s' => exact ih s'

/-- The potential rule, for steps that meet `P` in states that meet the invariant. -/
theorem Run.amortized {I : σ → Prop} {P : σ → α → Prop} {potential : σ → ℕ} {cost credit : σ → α → ℕ}
    (h : Run step s₀ as s) (hp : Each step P s₀ as) (h0 : I s₀)
    (hs : ∀ s a s', I s → P s a → step s a = some s' → I s')
    (hpays : ∀ s a s', I s → P s a → step s a = some s' → potential s' + cost s a ≤ potential s + credit s a) :
    potential s + total step cost s₀ as ≤ potential s₀ + total step credit s₀ as := by
  induction h with
  | nil => simp [total]
  | snoc hr hstep ih =>
    obtain ⟨hp, ha⟩ := (each_snoc_iff hr).1 hp
    have hstate := hpays _ _ _ (hr.invariant hp h0 hs) ha hstep
    have hbefore := ih hp
    rw [total_snoc hr, total_snoc hr]
    omega

end Machine
