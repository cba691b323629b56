import ApiTesting.Lib.Keyed

/-! Foreign keys. The rows of a list refer to a table if the key each of them names is there;
a write to either side keeps that if it takes away no row that is still named. The rows of a
tenant are those a test picks out, and a write to a row of somebody else's leaves them alone. -/

namespace Keyed

variable {ρ ρ' κ κ' : Type*} [DecidableEq κ] [DecidableEq κ']

/-- Every row names a row of the table. -/
def Refers {key : ρ → κ} (rows : List ρ') (foreign : ρ' → κ) (t : Table key) : Prop :=
  ∀ r ∈ rows, (t.get? (foreign r)).isSome

namespace Refers

variable {key : ρ → κ} {key' : ρ' → κ'} {t : Table key} {rows rows' : List ρ'} {u : Table key'} {foreign : ρ' → κ}

theorem subset (h : Refers rows foreign t) (hsub : rows' ⊆ rows) : Refers rows' foreign t := fun r hr =>
  h r (hsub hr)

omit [DecidableEq κ'] in
theorem filter (h : Refers u.rows foreign t) (p : ρ' → Bool) : Refers (u.filter p).rows foreign t :=
  h.subset fun _ hr => (Table.mem_filter.1 hr).1

theorem append (h : Refers rows foreign t) (h' : Refers rows' foreign t) : Refers (rows ++ rows') foreign t := by
  intro r hr
  rcases List.mem_append.1 hr with hr | hr
  · exact h r hr
  · exact h' r hr

/-- A row that names one of the table, put among the others. -/
theorem set {r : ρ'} (h : Refers u.rows foreign t) (hr : (t.get? (foreign r)).isSome) :
    Refers (u.set r).rows foreign t := by
  intro q hq
  rcases Table.mem_rows_set hq with rfl | hq
  · exact hr
  · exact h q hq

theorem set_referenced (h : Refers rows foreign t) (p : ρ) : Refers rows foreign (t.set p) := by
  intro r hr
  rw [Table.get?_set]
  split
  · rfl
  · exact h r hr

/-- A row that keeps what it names. -/
theorem modify {k : κ'} {f : ρ' → ρ'} (hf : ∀ r, key' (f r) = key' r) (h : Refers u.rows foreign t)
    (hforeign : ∀ r, foreign (f r) = foreign r) : Refers (u.modify k f hf).rows foreign t := by
  intro q hq
  obtain ⟨r, hr, rfl⟩ := List.mem_map.1 hq
  have hname : foreign (if key' r = k then f r else r) = foreign r := by
    split
    · exact hforeign r
    · rfl
  rw [hname]
  exact h r hr

theorem modify_referenced {k : κ} {f : ρ → ρ} (hf : ∀ r, key (f r) = key r) (h : Refers rows foreign t) :
    Refers rows foreign (t.modify k f hf) := by
  intro r hr
  rw [Table.get?_modify]
  have hsome := h r hr
  split
  · rename_i hk
    rw [← hk, Option.isSome_map]
    exact hsome
  · exact hsome

/-- The rows of the table that are still named stay. -/
theorem filter_referenced {p : ρ → Bool} (h : Refers rows foreign t)
    (hp : ∀ r ∈ rows, ∀ q ∈ t.rows, key q = foreign r → p q) : Refers rows foreign (t.filter p) := by
  intro r hr
  obtain ⟨q, hq⟩ := Option.isSome_iff_exists.1 (h r hr)
  obtain ⟨hrow, hkey⟩ := Table.get?_eq_some_iff.1 hq
  rw [Table.get?_filter, hq, Option.filter_some, if_pos (hp r hr q hrow hkey)]
  rfl

end Refers

namespace Table

variable {key : ρ → κ} {t : Table key}

theorem insert?_eq_set {u : Table key} {r : ρ} (h : t.insert? r = some u) : u = t.set r := by
  obtain ⟨hrows, hkey⟩ := rows_insert? h
  apply ext
  rw [hrows, set, dif_neg hkey]

/-- A row of somebody else, in place of one of theirs or new. -/
theorem filter_set_of_false {r : ρ} {p : ρ → Bool} (hr : p r = false)
    (hold : ∀ q, t.get? (key r) = some q → p q = false) : (t.set r).filter p = t.filter p :=
  ext (filter_rows_set hr fun q hq hkey => hold q (get?_eq_some_iff.2 ⟨hq, hkey⟩))

omit [DecidableEq κ] in
/-- What is left out was not picked anyway. -/
theorem filter_filter_of_imp {p keep : ρ → Bool} (h : ∀ r ∈ t.rows, p r → keep r) :
    (t.filter keep).filter p = t.filter p := by
  apply ext
  simp only [filter, List.filter_filter]
  refine List.filter_congr fun r hr => ?_
  cases hp : p r
  · rfl
  · simp [h r hr hp]

end Table

end Keyed
