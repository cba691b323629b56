import Mathlib.Data.List.Infix
import Mathlib.Tactic.Common

/-! Runs of a labelled machine: `step s a` is the state after the action `a`, or
`none` where `a` cannot be taken in `s`. A property of a run is either one of
every state it visits (`Always`) or one of every step it takes (`Each`), and the
invariant rule passes from the second to the first. -/

namespace Machine

variable {σ α : Type*} {step : σ → α → Option σ} {s₀ s s' : σ} {as bs : List α} {a : α}

/-- The actions `as`, taken in order from `s₀`, lead to the last argument. -/
inductive Run (step : σ → α → Option σ) (s₀ : σ) : List α → σ → Prop
  | nil : Run step s₀ [] s₀
  | snoc {as : List α} {s : σ} {a : α} {s' : σ} :
      Run step s₀ as s → step s a = some s' → Run step s₀ (as ++ [a]) s'

/-- Every step of the run `as` from `s₀` meets `P` in the state it is taken in. -/
def Each (step : σ → α → Option σ) (P : σ → α → Prop) (s₀ : σ) (as : List α) : Prop :=
  ∀ bs a s, bs ++ [a] <+: as → Run step s₀ bs s → P s a

/-- Every state the run `as` from `s₀` visits meets `I`. -/
def Always (step : σ → α → Option σ) (I : σ → Prop) (s₀ : σ) (as : List α) : Prop :=
  ∀ bs s, bs <+: as → Run step s₀ bs s → I s

/-- The state at the end of a run, computed. -/
def exec (step : σ → α → Option σ) (s : σ) : List α → Option σ
  | [] => some s
  | a :: as => (step s a).bind (exec step · as)

def final (step : σ → α → Option σ) (s : σ) (as : List α) : σ := (exec step s as).getD s

/-- `Each`, decided along the way of a run. -/
def eachB (step : σ → α → Option σ) (p : σ → α → Bool) (s : σ) : List α → Bool
  | [] => true
  | a :: as => p s a && (step s a).all (eachB step p · as)

theorem run_nil_iff : Run step s₀ [] s ↔ s = s₀ := by
  constructor
  · intro h
    generalize he : ([] : List α) = l at h
    cases h with
    | nil => rfl
    | snoc _ _ => simp at he
  · rintro rfl
    exact .nil

theorem run_snoc_iff : Run step s₀ (as ++ [a]) s' ↔ ∃ s, Run step s₀ as s ∧ step s a = some s' := by
  constructor
  · intro h
    generalize he : as ++ [a] = l at h
    cases h with
    | nil => simp at he
    | snoc hr hs =>
      obtain ⟨rfl, ha⟩ := List.append_inj' he rfl
      cases ha
      exact ⟨_, hr, hs⟩
  · rintro ⟨s, hr, hs⟩
    exact .snoc hr hs

theorem Run.append (h : Run step s₀ as s) (h' : Run step s bs s') :
    Run step s₀ (as ++ bs) s' := by
  induction h' with
  | nil => simpa using h
  | snoc _ hs ih =>
    rw [← List.append_assoc]
    exact .snoc ih hs

theorem Run.split (h : Run step s₀ (as ++ bs) s') :
    ∃ s, Run step s₀ as s ∧ Run step s bs s' := by
  induction bs using List.reverseRecOn generalizing s' with
  | nil => exact ⟨s', by simpa using h, .nil⟩
  | append_singleton bs a ih =>
    rw [← List.append_assoc, run_snoc_iff] at h
    obtain ⟨u, hu, hs⟩ := h
    obtain ⟨s, h1, h2⟩ := ih hu
    exact ⟨s, h1, .snoc h2 hs⟩

/-- The labels determine the states. -/
theorem Run.unique (h : Run step s₀ as s) (h' : Run step s₀ as s') : s = s' := by
  induction h generalizing s' with
  | nil => exact (run_nil_iff.1 h').symm
  | snoc _ hs ih =>
    obtain ⟨u, hu, hs'⟩ := run_snoc_iff.1 h'
    obtain rfl := ih hu
    exact Option.some.inj (hs.symm.trans hs')

theorem Run.of_prefix (h : Run step s₀ as s) (hp : bs <+: as) : ∃ u, Run step s₀ bs u := by
  obtain ⟨cs, rfl⟩ := hp
  obtain ⟨u, hu, -⟩ := h.split
  exact ⟨u, hu⟩

theorem run_of_exec (h : exec step s₀ as = some s) : Run step s₀ as s := by
  induction as generalizing s₀ with
  | nil =>
    cases h
    exact .nil
  | cons a as ih =>
    obtain ⟨u, hu, hrest⟩ := Option.bind_eq_some_iff.1 h
    exact Run.append (.snoc .nil hu) (ih hrest)

theorem run_final (as : List α) (h : (exec step s₀ as).isSome) : Run step s₀ as (final step s₀ as) := by
  obtain ⟨s, hs⟩ := Option.isSome_iff_exists.1 h
  rw [final, hs]
  exact run_of_exec hs

theorem each_nil {P : σ → α → Prop} : Each step P s₀ [] := by
  intro bs a s hp _
  simp at hp

theorem each_snoc_iff {P : σ → α → Prop} (h : Run step s₀ as s) :
    Each step P s₀ (as ++ [a]) ↔ Each step P s₀ as ∧ P s a := by
  constructor
  · intro he
    exact ⟨fun bs b u hp hr => he bs b u (hp.trans (List.prefix_append _ _)) hr,
      he as a s (List.prefix_refl _) h⟩
  · rintro ⟨he, ha⟩ bs b u hp hr
    rcases List.prefix_concat_iff.1 hp with heq | hp
    · obtain ⟨rfl, hb⟩ := List.append_inj' heq rfl
      cases hb
      rwa [← h.unique hr]
    · exact he bs b u hp hr

theorem always_nil {I : σ → Prop} : Always step I s₀ [] ↔ I s₀ := by
  constructor
  · intro h
    exact h [] s₀ (List.prefix_refl _) .nil
  · intro h bs s hp hr
    obtain rfl := List.prefix_nil.1 hp
    rwa [run_nil_iff.1 hr]

theorem always_snoc_iff {I : σ → Prop} (h : Run step s₀ (as ++ [a]) s') :
    Always step I s₀ (as ++ [a]) ↔ Always step I s₀ as ∧ I s' := by
  constructor
  · intro hi
    exact ⟨fun bs u hp hr => hi bs u (hp.trans (List.prefix_append _ _)) hr,
      hi _ s' (List.prefix_refl _) h⟩
  · rintro ⟨hi, hs'⟩ bs u hp hr
    rcases List.prefix_concat_iff.1 hp with rfl | hp
    · rwa [← h.unique hr]
    · exact hi bs u hp hr

theorem Always.last {I : σ → Prop} (h : Always step I s₀ as) (hr : Run step s₀ as s) : I s :=
  h as s (List.prefix_refl _) hr

theorem Each.mono {P Q : σ → α → Prop} (h : Each step P s₀ as) (hpq : ∀ s a, P s a → Q s a) :
    Each step Q s₀ as :=
  fun bs a s hp hr => hpq s a (h bs a s hp hr)

theorem Each.and {P Q : σ → α → Prop} (hp : Each step P s₀ as) (hq : Each step Q s₀ as) :
    Each step (fun s a => P s a ∧ Q s a) s₀ as :=
  fun bs a s hb hr => ⟨hp bs a s hb hr, hq bs a s hb hr⟩

theorem Each.of_prefix {P : σ → α → Prop} (h : Each step P s₀ as) (hp : bs <+: as) :
    Each step P s₀ bs :=
  fun cs a s hc hr => h cs a s (hc.trans hp) hr

theorem Each.of_suffix {P : σ → α → Prop} (h : Each step P s₀ (as ++ bs)) (hr : Run step s₀ as s) :
    Each step P s bs := by
  intro cs a u hc hu
  refine h (as ++ cs) a u ?_ (hr.append hu)
  rw [List.append_assoc]
  exact (List.prefix_append_right_inj as).2 hc

/-- The invariant rule: what holds at the start, and is kept by every step that
meets `P`, holds at the end of a run whose steps all meet `P`. -/
theorem Run.invariant {I : σ → Prop} {P : σ → α → Prop} (h : Run step s₀ as s)
    (hp : Each step P s₀ as) (h0 : I s₀)
    (hs : ∀ s a s', I s → P s a → step s a = some s' → I s') : I s := by
  induction h with
  | nil => exact h0
  | snoc hr hstep ih =>
    obtain ⟨hp, ha⟩ := (each_snoc_iff hr).1 hp
    exact hs _ _ _ (ih hp) ha hstep

/-- The same for what every step keeps. -/
theorem Run.keeps {I : σ → Prop} (h : Run step s₀ as s) (h0 : I s₀)
    (hs : ∀ s a s', I s → step s a = some s' → I s') : I s :=
  h.invariant (P := fun _ _ => True) (fun _ _ _ _ _ => trivial) h0 fun s a s' hi _ => hs s a s' hi

/-- The same for every state on the way. -/
theorem Run.always {I : σ → Prop} {P : σ → α → Prop} (hp : Each step P s₀ as) (h0 : I s₀)
    (hs : ∀ s a s', I s → P s a → step s a = some s' → I s') : Always step I s₀ as :=
  fun _ _ hb hr => hr.invariant (hp.of_prefix hb) h0 hs

/-- What holds of every step taken in a state that meets the invariant. -/
theorem Run.each {I : σ → Prop} {P Q : σ → α → Prop} (h : Run step s₀ as s)
    (hp : Each step P s₀ as) (h0 : I s₀)
    (hs : ∀ s a s', I s → P s a → step s a = some s' → I s')
    (hq : ∀ s a s', I s → P s a → step s a = some s' → Q s a) : Each step Q s₀ as := by
  induction h with
  | nil => exact each_nil
  | snoc hr hstep ih =>
    have ⟨hp, ha⟩ := (each_snoc_iff hr).1 hp
    exact (each_snoc_iff hr).2 ⟨ih hp, hq _ _ _ (hr.invariant hp h0 hs) ha hstep⟩

/-- What is kept as long as `I` holds, at the end of a run that has kept `I`. -/
theorem Run.relying {I J : σ → Prop} (h : Run step s₀ as s) (hi : Always step I s₀ as) (hj : J s₀)
    (hkeep : ∀ s a s', I s → J s → step s a = some s' → J s') : J s := by
  induction h with
  | nil => exact hj
  | snoc hr hstep ih =>
    have hprev := ((always_snoc_iff (.snoc hr hstep)).1 hi).1
    exact hkeep _ _ _ (hprev.last hr) (ih hprev) hstep

/-- Where a step keeps `I` exactly if it meets `P`, a run keeps it all along exactly if all
its steps meet `P`. The step may rely on `J`, which holds as long as `I` does. -/
theorem Run.always_iff_each {I J : σ → Prop} {P : σ → α → Prop} (h : Run step s₀ as s) (hi : I s₀)
    (hj : J s₀) (hkeep : ∀ s a s', I s → J s → step s a = some s' → J s')
    (hiff : ∀ s a s', I s → J s → step s a = some s' → (I s' ↔ P s a)) :
    Always step I s₀ as ↔ Each step P s₀ as := by
  induction h with
  | nil => exact iff_of_true (always_nil.2 hi) each_nil
  | snoc hr hstep ih =>
    rw [always_snoc_iff (.snoc hr hstep), each_snoc_iff hr, ← ih]
    exact and_congr_right fun hprev => hiff _ _ _ (hprev.last hr) (hr.relying hprev hj hkeep) hstep

/-- A property that does not look at the state. -/
theorem each_of_mem {P : σ → α → Prop} (h : ∀ a ∈ as, ∀ s, P s a) : Each step P s₀ as :=
  fun _ a s hp _ => h a (hp.subset (List.mem_append_right _ (List.mem_singleton_self a))) s

theorem each_of_eachB {P : σ → α → Prop} {p : σ → α → Bool} (hp : ∀ s a, p s a = true → P s a)
    (h : eachB step p s₀ as = true) : Each step P s₀ as := by
  intro bs
  induction bs generalizing s₀ as with
  | nil =>
    intro a s hpre hr
    obtain ⟨cs, rfl⟩ := hpre
    obtain rfl := run_nil_iff.1 hr
    simp only [List.nil_append, List.singleton_append, eachB, Bool.and_eq_true] at h
    exact hp _ _ h.1
  | cons b bs ih =>
    intro a s hpre hr
    obtain ⟨cs, rfl⟩ := hpre
    rw [← List.singleton_append] at hr
    obtain ⟨u, hu, hrest⟩ := hr.split
    rw [← List.nil_append [b]] at hu
    obtain ⟨v, hv, hstep⟩ := run_snoc_iff.1 hu
    obtain rfl := run_nil_iff.1 hv
    simp only [List.cons_append, eachB, hstep, Option.all_some, Bool.and_eq_true] at h
    exact ih h.2 a s (List.prefix_append _ _) hrest

end Machine
