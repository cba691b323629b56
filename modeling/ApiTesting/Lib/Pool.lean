import Mathlib.Algebra.BigOperators.Group.List.Basic
import Mathlib.Algebra.GroupWithZero.Nat
import Mathlib.Algebra.Order.Group.Multiset
import Mathlib.Tactic.Common

/-! A pool of processes, each holding a list of items. What the pool holds is a
multiset: replacing one process changes it by what that process gave up and took
on, whatever the others hold. -/

namespace Pool

variable {σ α β : Type*} {f : σ → List α} {l : List σ} {i : ℕ} {x y : σ} {a : α}

def held (f : σ → List α) (l : List σ) : Multiset α := ↑(l.flatMap f)

/-- The processes after one has been replaced. -/
theorem of_getElem?_set {j : ℕ} (h : (l.set i y)[j]? = some x) : j = i ∧ x = y ∨ j ≠ i ∧ l[j]? = some x := by
  by_cases hj : j = i
  · obtain rfl := hj
    rw [List.getElem?_set_self', Option.map_eq_map, Option.map_eq_some_iff] at h
    obtain ⟨_, -, rfl⟩ := h
    exact .inl ⟨rfl, rfl⟩
  · rw [List.getElem?_set_ne (Ne.symm hj)] at h
    exact .inr ⟨hj, h⟩

/-- The processes after one has been added. -/
theorem of_getElem?_concat (h : (l ++ [y])[i]? = some x) : x = y ∨ l[i]? = some x := by
  rcases lt_or_ge i l.length with hi | hi
  · rw [List.getElem?_append_left hi] at h
    exact .inr h
  · rw [List.getElem?_append_right hi] at h
    exact .inl (List.mem_singleton.1 (List.mem_of_getElem? h))

theorem mem_held : a ∈ held f l ↔ ∃ x ∈ l, a ∈ f x := by
  rw [held, Multiset.mem_coe, List.mem_flatMap]

theorem held_cons (x : σ) (l : List σ) : held f (x :: l) = ↑(f x) + held f l := by
  rw [held, List.flatMap_cons, ← Multiset.coe_add]
  rfl

theorem held_set (h : l[i]? = some x) (y : σ) :
    held f (l.set i y) + ↑(f x) = held f l + ↑(f y) := by
  induction l generalizing i with
  | nil => simp at h
  | cons z l ih =>
    cases i with
    | zero =>
      obtain rfl : z = x := by simpa using h
      rw [List.set_cons_zero, held_cons, held_cons]
      ac_rfl
    | succ i =>
      rw [List.set_cons_succ, held_cons, held_cons, add_assoc, ih (by simpa using h)]
      ac_rfl

theorem coe_le_held (h : l[i]? = some x) : (f x : Multiset α) ≤ held f l := by
  induction l generalizing i with
  | nil => simp at h
  | cons z l ih =>
    rw [held_cons]
    cases i with
    | zero =>
      obtain rfl : z = x := by simpa using h
      exact Multiset.le_add_right _ _
    | succ i => exact (ih (by simpa using h)).trans (Multiset.le_add_left _ _)

/-- A process that gave nothing up. -/
theorem held_set_of_add {n : Multiset α} (h : l[i]? = some x) (hy : (f y : Multiset α) = n + ↑(f x)) :
    held f (l.set i y) = n + held f l := by
  have := held_set (f := f) h y
  rw [hy] at this
  apply add_right_cancel (b := (f x : Multiset α))
  rw [this]
  ac_rfl

/-- A process that took nothing on. -/
theorem held_of_set_add {n : Multiset α} (h : l[i]? = some x) (hx : (f x : Multiset α) = n + ↑(f y)) :
    held f l = n + held f (l.set i y) := by
  have := held_set (f := f) h y
  rw [hx] at this
  apply add_right_cancel (b := (f y : Multiset α))
  rw [← this]
  ac_rfl

/-- One item exchanged for another: the rest is what both sides share. -/
theorem exists_rest {m m' : Multiset α} {b : α} (h : m' + {a} = m + {b}) (hab : a ≠ b) :
    ∃ r, m = a ::ₘ r ∧ m' = b ::ₘ r := by
  have ha : a ∈ m + {b} := h ▸ Multiset.mem_add.2 (.inr (Multiset.mem_singleton_self a))
  obtain ⟨r, rfl⟩ := Multiset.exists_cons_of_mem
    ((Multiset.mem_add.1 ha).resolve_right fun hb => hab (Multiset.mem_singleton.1 hb))
  refine ⟨r, rfl, ?_⟩
  apply add_right_cancel (b := ({a} : Multiset α))
  rw [h, ← Multiset.singleton_add, ← Multiset.singleton_add]
  ac_rfl

/-- What an amount kept for each process adds up to after one has been replaced. -/
theorem sum_map_set {f : σ → ℕ} (h : l[i]? = some x) (y : σ) :
    ((l.set i y).map f).sum + f x = (l.map f).sum + f y := by
  induction l generalizing i with
  | nil => simp at h
  | cons z l ih =>
    cases i with
    | zero =>
      obtain rfl : z = x := by simpa using h
      simp only [List.set_cons_zero, List.map_cons, List.sum_cons]
      omega
    | succ i =>
      have hrest := ih (i := i) (by simpa using h)
      simp only [List.set_cons_succ, List.map_cons, List.sum_cons]
      omega

end Pool
