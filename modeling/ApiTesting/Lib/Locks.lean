import ApiTesting.Lib.Machine
import Mathlib.Data.Fintype.Basic
import Mathlib.Logic.Relation
import Mathlib.Order.Defs.Unbundled

/-! Parties that each take locks one after the other, in an order of their own, and
give them back together when they end. Whether some of them can come to wait for each
other in a circle is a matter of the orders alone, and with one order for all none can. -/

namespace Locks

open Machine Relation

/-- What a party holds, and what it is still to take. -/
structure Party (ρ : Type*) where
  held : List ρ
  wanted : List ρ

variable {ι ρ ρ' : Type*} {order own : ι → List ρ} {s s' : ι → Party ρ}

/-- `i` waits for a lock that `j` holds. -/
def WaitsFor (s : ι → Party ρ) (i j : ι) : Prop := i ≠ j ∧ ∃ r ∈ (s i).wanted.head?, r ∈ (s j).held

/-- Some parties wait for each other in a circle. -/
def Deadlocked (s : ι → Party ρ) : Prop := ∃ i, TransGen (WaitsFor s) i i

/-- No lock is held twice. -/
def Exclusive (s : ι → Party ρ) : Prop := ∀ i j, i ≠ j → (s i).held.Disjoint (s j).held

/-- Each party has taken its locks up to some point of its order. -/
def Divides (s : ι → Party ρ) (order : ι → List ρ) : Prop := ∀ i, (s i).held ++ (s i).wanted = order i

/-- The orders can be cut so that the parties wait in a circle. -/
def Crossed (order : ι → List ρ) : Prop :=
  ∃ s : ι → Party ρ, Divides s order ∧ Exclusive s ∧ Deadlocked s

theorem Deadlocked.mono {u : ι → Party ρ'} (h : Deadlocked s) (hs : ∀ i j, WaitsFor s i j → WaitsFor u i j) :
    Deadlocked u := by
  obtain ⟨i, hi⟩ := h
  exact ⟨i, TransGen.mono hs i i hi⟩

/-- Where the locks are ordered, and everybody takes them upwards, nobody waits for himself. -/
theorem not_crossed_of_sorted (lt : ρ → ρ → Prop) [IsStrictOrder ρ lt] (h : ∀ i, (order i).Pairwise lt) :
    ¬ Crossed order := by
  rintro ⟨s, hs, -, i, hi⟩
  -- along the chain the lock that is waited for only goes up
  have hup : ∀ j, TransGen (WaitsFor s) i j → ∀ r ∈ (s i).wanted.head?, ∀ q ∈ (s j).wanted.head?, lt r q := by
    intro j hj
    have hstep : ∀ {k l : ι}, WaitsFor s k l → ∀ r ∈ (s k).wanted.head?, ∀ q ∈ (s l).wanted.head?, lt r q := by
      rintro k l ⟨-, r', hr', hheld⟩ r hr q hq
      obtain rfl : r' = r := Option.mem_unique hr' hr
      have hl := h l
      rw [← hs l, List.pairwise_append] at hl
      exact hl.2.2 r' hheld q (List.mem_of_mem_head? hq)
    induction hj with
    | single hw => exact hstep hw
    | tail hj hw ih =>
      intro r hr q hq
      obtain ⟨-, p, hp, -⟩ := id hw
      exact trans_of lt (ih r hr p hp) (hstep hw p hp q hq)
  obtain ⟨j, ⟨-, r, hr, -⟩, -⟩ := TransGen.head'_iff.1 hi
  exact irrefl_of lt r (hup i hi r hr r hr)

/-- A cut of `own ++ rest`, seen on `rest`. -/
theorem exists_cut {own rest : List ρ} {p : Party ρ} (h : p.held ++ p.wanted = own ++ rest) :
    ∃ q : Party ρ, q.held ++ q.wanted = rest ∧ q.held ⊆ p.held ∧
      (∀ r ∈ p.held, r ∉ own → r ∈ q.held) ∧ ∀ r ∈ p.wanted.head?, r ∉ own → r ∈ q.wanted.head? := by
  rcases List.prefix_or_prefix_of_prefix (h ▸ List.prefix_append p.held p.wanted : p.held <+: own ++ rest)
    (List.prefix_append own rest) with ⟨t, ht⟩ | ⟨t, ht⟩
  · rw [← ht, List.append_assoc, List.append_cancel_left_eq] at h
    refine ⟨⟨[], rest⟩, rfl, by simp, fun r hr hno => ?_, fun r hr hno => ?_⟩
    · rw [← ht] at hno
      exact absurd (List.mem_append_left t hr) hno
    · rw [h] at hr
      cases t with
      | nil => exact hr
      | cons a t =>
        cases hr
        rw [← ht] at hno
        exact absurd (List.mem_append_right _ List.mem_cons_self) hno
  · rw [← ht, List.append_assoc, List.append_cancel_left_eq] at h
    refine ⟨⟨t, p.wanted⟩, h, fun r hr => ht ▸ List.mem_append_right own hr, fun r hr hno => ?_, fun r hr _ => hr⟩
    rw [← ht, List.mem_append] at hr
    exact hr.resolve_left hno

/-- Locks that a party shares with nobody make no difference. -/
theorem crossed_append_iff (hown : ∀ i j, i ≠ j → (own i).Disjoint (own j))
    (hapart : ∀ i j, (own i).Disjoint (order j)) :
    Crossed (fun i => own i ++ order i) ↔ Crossed order := by
  constructor
  · rintro ⟨s, hs, hex, hdead⟩
    have hs : ∀ i, (s i).held ++ (s i).wanted = own i ++ order i := hs
    choose u hdiv hsub hheld hnext using fun i => exists_cut (hs i)
    refine ⟨u, hdiv, fun i j hij r hi hj => hex i j hij (hsub i hi) (hsub j hj), hdead.mono fun i j => ?_⟩
    rintro ⟨hij, r, hr, hj⟩
    -- a lock two parties want is neither's own
    have hrj : r ∈ own j ++ order j := hs j ▸ List.mem_append_left _ hj
    have hri : r ∈ own i ++ order i := hs i ▸ List.mem_append_right _ (List.mem_of_mem_head? hr)
    have hnoti : r ∉ own i := by
      intro hi
      rcases List.mem_append.1 hrj with hj | hj
      · exact hown i j hij hi hj
      · exact hapart i j hi hj
    have hnotj : r ∉ own j := fun hj => hapart j i hj ((List.mem_append.1 hri).resolve_left hnoti)
    exact ⟨hij, r, hnext i r hr hnoti, hheld j r hj hnotj⟩
  · rintro ⟨s, hs, hex, hdead⟩
    have hsub : ∀ i, (s i).held ⊆ order i := fun i r hr => hs i ▸ List.mem_append_left _ hr
    refine ⟨fun i => ⟨own i ++ (s i).held, (s i).wanted⟩, fun i => ?_, fun i j hij => ?_, ?_⟩
    · rw [List.append_assoc, hs i]
    · rw [List.disjoint_append_left, List.disjoint_append_right, List.disjoint_append_right]
      exact ⟨⟨hown i j hij, fun r hr hj => hapart i j hr (hsub j hj)⟩,
        fun r hi hr => hapart j i hr (hsub i hi), hex i j hij⟩
    · refine hdead.mono fun i j => ?_
      rintro ⟨hij, r, hr, hheld⟩
      exact ⟨hij, r, hr, List.mem_append_right _ hheld⟩

/-- Nor do the names of the locks. -/
theorem crossed_map_iff {f : ρ → ρ'} (hf : Function.Injective f) :
    Crossed (fun i => (order i).map f) ↔ Crossed order := by
  constructor
  · rintro ⟨s, hs, hex, hdead⟩
    have hcut : ∀ i, ∃ q : Party ρ, q.held ++ q.wanted = order i ∧ s i = ⟨q.held.map f, q.wanted.map f⟩ := by
      intro i
      obtain ⟨h, w, heq, hh, hw⟩ := List.map_eq_append_iff.1 (hs i).symm
      exact ⟨⟨h, w⟩, heq.symm, by rw [hh, hw]⟩
    choose u hdiv hu using hcut
    refine ⟨u, hdiv, fun i j hij r hi hj => ?_, hdead.mono fun i j => ?_⟩
    · refine hex i j hij (a := f r) ?_ ?_
      · rw [hu i]
        exact List.mem_map_of_mem hi
      · rw [hu j]
        exact List.mem_map_of_mem hj
    · rintro ⟨hij, r, hr, hheld⟩
      rw [hu i, List.head?_map] at hr
      rw [hu j] at hheld
      obtain ⟨q, hq, rfl⟩ := Option.mem_map.1 hr
      obtain ⟨q', hq', heq⟩ := List.mem_map.1 hheld
      exact ⟨hij, q, hq, hf heq ▸ hq'⟩
  · rintro ⟨s, hs, hex, hdead⟩
    refine ⟨fun i => ⟨(s i).held.map f, (s i).wanted.map f⟩, fun i => ?_, fun i j hij r hi hj => ?_, ?_⟩
    · rw [← List.map_append, hs i]
    · obtain ⟨q, hq, rfl⟩ := List.mem_map.1 hi
      obtain ⟨q', hq', heq⟩ := List.mem_map.1 hj
      exact hex i j hij hq (hf heq ▸ hq')
    · refine hdead.mono fun i j => ?_
      rintro ⟨hij, r, hr, hheld⟩
      refine ⟨hij, f r, ?_, List.mem_map_of_mem hheld⟩
      rw [List.head?_map]
      exact Option.mem_map_of_mem f hr

/-! The machine: a lock is taken where nobody else holds it, and a party may end at any time. -/

inductive Action (ι : Type*)
  | take (i : ι)
  | finish (i : ι)

/-- Nobody holds anything. -/
def start (order : ι → List ρ) : ι → Party ρ := fun i => ⟨[], order i⟩

/-- A party is on its way or has ended. -/
structure Reached (order : ι → List ρ) (s : ι → Party ρ) : Prop where
  place : ∀ i, (s i).held ++ (s i).wanted = order i ∨ s i = ⟨[], []⟩
  exclusive : Exclusive s

/-- A party that has ended waits for nobody and is waited for by nobody, so it may be
taken not to have begun. -/
theorem Reached.crossed (h : Reached order s) (hdead : Deadlocked s) : Crossed order := by
  have hplace : ∀ i, ∃ p : Party ρ, p.held ++ p.wanted = order i ∧ p.held = (s i).held ∧
      ∀ r ∈ (s i).wanted.head?, r ∈ p.wanted.head? := by
    intro i
    rcases h.place i with hp | hp
    · exact ⟨s i, hp, rfl, fun _ hr => hr⟩
    · exact ⟨⟨[], order i⟩, rfl, by rw [hp], by simp [hp]⟩
  choose u hdiv hheld hnext using hplace
  refine ⟨u, hdiv, fun i j hij => ?_, hdead.mono fun i j => ?_⟩
  · rw [hheld i, hheld j]
    exact h.exclusive i j hij
  · rintro ⟨hij, r, hr, hmem⟩
    exact ⟨hij, r, hnext i r hr, by rw [hheld j]; exact hmem⟩

section
variable [Fintype ι] [DecidableEq ι] [DecidableEq ρ]

def step (s : ι → Party ρ) : Action ι → Option (ι → Party ρ)
  | .take i =>
    match (s i).wanted with
    | [] => none
    | r :: rest =>
      if ∀ j, j ≠ i → r ∉ (s j).held then some (Function.update s i ⟨(s i).held ++ [r], rest⟩) else none
  | .finish i => some (Function.update s i ⟨[], []⟩)

theorem reached_step {a : Action ι} (h : Reached order s) (hstep : step s a = some s') : Reached order s' := by
  have hupdate : ∀ i p, (p.held ++ p.wanted = order i ∨ p = ⟨[], []⟩) →
      (∀ j, j ≠ i → p.held.Disjoint (s j).held) → Reached order (Function.update s i p) := by
    intro i p hplace hother
    refine ⟨fun j => ?_, fun j k hjk => ?_⟩
    · by_cases hj : j = i
      · subst hj
        rw [Function.update_self]
        exact hplace
      · rw [Function.update_of_ne hj]
        exact h.place j
    · by_cases hj : j = i
      · subst hj
        rw [Function.update_self, Function.update_of_ne (Ne.symm hjk)]
        exact hother k (Ne.symm hjk)
      · rw [Function.update_of_ne hj]
        by_cases hk : k = i
        · subst hk
          rw [Function.update_self]
          exact (hother j hj).symm
        · rw [Function.update_of_ne hk]
          exact h.exclusive j k hjk
  cases a with
  | take i =>
    rw [step] at hstep
    split at hstep
    · cases hstep
    · rename_i r rest hwanted
      split at hstep
      · rename_i hfree
        cases hstep
        refine hupdate i _ (.inl ?_) fun j hj => ?_
        · rcases h.place i with hp | hp
          · rw [List.append_assoc, List.singleton_append, ← hwanted, hp]
          · rw [hp] at hwanted
            cases hwanted
        · rw [List.disjoint_append_left, List.singleton_disjoint]
          exact ⟨h.exclusive i j (Ne.symm hj), hfree j hj⟩
      · cases hstep
  | finish i =>
    cases hstep
    exact hupdate i _ (.inr rfl) fun j _ => List.disjoint_nil_left _

theorem reached_run {as : List (Action ι)} (h : Run step (start order) as s) : Reached order s :=
  h.keeps ⟨fun _ => .inl rfl, fun _ _ _ => List.disjoint_nil_left _⟩ fun _ _ _ hr hs => reached_step hr hs

/-- One party takes what it may. -/
theorem run_take {i : ι} (held taken rest : List ρ)
    (hfree : ∀ j, j ≠ i → taken.Disjoint (s j).held) :
    ∃ as, Run step (Function.update s i ⟨held, taken ++ rest⟩) as (Function.update s i ⟨held ++ taken, rest⟩) := by
  induction taken generalizing held with
  | nil => exact ⟨[], by rw [List.append_nil]; exact .nil⟩
  | cons r taken ih =>
    obtain ⟨as, hrun⟩ := ih (held ++ [r]) fun j hj => (List.disjoint_cons_left.1 (hfree j hj)).2
    rw [List.append_assoc, List.singleton_append] at hrun
    refine ⟨[.take i] ++ as, Run.append (.snoc .nil ?_) hrun⟩
    rw [step, Function.update_self]
    change (if _ then _ else _) = _
    rw [if_pos]
    · rw [Function.update_idem]
      rfl
    · intro j hj
      rw [Function.update_of_ne hj]
      exact (List.disjoint_cons_left.1 (hfree j hj)).1

/-- Every cut of the orders that holds no lock twice is reached. -/
theorem run_of_divides (hs : Divides s order) (hex : Exclusive s) : ∃ as, Run step (start order) as s := by
  have hpart : ∀ done : Finset ι, ∃ as,
      Run step (start order) as fun i => if i ∈ done then s i else start order i := by
    intro done
    induction done using Finset.induction_on with
    | empty => exact ⟨[], by simpa using Run.nil⟩
    | insert i done hi ih =>
      obtain ⟨as, hrun⟩ := ih
      set u : ι → Party ρ := fun j => if j ∈ done then s j else start order j with hu
      have hfree : ∀ j, j ≠ i → (s i).held.Disjoint (u j).held := by
        intro j hj
        rw [hu]
        dsimp only
        split
        · exact hex i j (Ne.symm hj)
        · exact List.disjoint_nil_right _
      obtain ⟨bs, hrun'⟩ := run_take [] (s i).held (s i).wanted hfree
      have hbefore : Function.update u i ⟨[], (s i).held ++ (s i).wanted⟩ = u := by
        rw [Function.update_eq_self_iff, hs i]
        exact (if_neg hi).symm
      have hafter : Function.update u i ⟨[] ++ (s i).held, (s i).wanted⟩ =
          fun j => if j ∈ insert i done then s j else start order j := by
        funext j
        by_cases hj : j = i
        · subst hj
          rw [Function.update_self, if_pos (Finset.mem_insert_self j done)]
          rfl
        · rw [Function.update_of_ne hj]
          simp [hu, hj]
      rw [hbefore, hafter] at hrun'
      exact ⟨as ++ bs, hrun.append hrun'⟩
  obtain ⟨as, hrun⟩ := hpart Finset.univ
  exact ⟨as, by simpa using hrun⟩

/-- Nobody ever waits in a circle exactly where the orders are not crossed. -/
theorem never_deadlocked_iff :
    (∀ as s, Run step (start order) as s → ¬ Deadlocked s) ↔ ¬ Crossed order := by
  constructor
  · rintro h ⟨s, hs, hex, hdead⟩
    obtain ⟨as, hrun⟩ := run_of_divides hs hex
    exact h as s hrun hdead
  · intro h as s hrun hdead
    exact h ((reached_run hrun).crossed hdead)

end

end Locks
