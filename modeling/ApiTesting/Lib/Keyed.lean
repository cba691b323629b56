import Mathlib.Data.List.Nodup
import Mathlib.Tactic.Common

/-! Rows with distinct keys, in the order they were inserted. A table of a
database is one (its key is the primary key), and so are an insertion-ordered
dictionary, a Redis hash and a sorted set (their key is the first component).
That no two rows share a key is a field, so no operation can lose it. -/

namespace Keyed

variable {ρ κ ν : Type*}

structure Table (key : ρ → κ) where
  rows : List ρ
  nodup : (rows.map key).Nodup

namespace Table

variable {key : ρ → κ}

@[ext] theorem ext {t u : Table key} (h : t.rows = u.rows) : t = u := by
  cases t
  cases u
  cases h
  rfl

def empty : Table key := ⟨[], List.nodup_nil⟩

def keys (t : Table key) : List κ := t.rows.map key

def filter (t : Table key) (p : ρ → Bool) : Table key where
  rows := t.rows.filter p
  nodup := t.nodup.sublist (List.filter_sublist.map key)

theorem mem_filter {t : Table key} {p : ρ → Bool} {r : ρ} :
    r ∈ (t.filter p).rows ↔ r ∈ t.rows ∧ p r := List.mem_filter

variable [DecidableEq κ]

def get? (t : Table key) (k : κ) : Option ρ := t.rows.find? (fun r => key r = k)

/-- Every row, replaced by a row of the same key. -/
def map (t : Table key) (f : ρ → ρ) (hf : ∀ r, key (f r) = key r) : Table key where
  rows := t.rows.map f
  nodup := by
    have : key ∘ f = key := funext hf
    rw [List.map_map, this]
    exact t.nodup

/-- The row of one key, replaced by a row of the same key. -/
def modify (t : Table key) (k : κ) (f : ρ → ρ) (hf : ∀ r, key (f r) = key r := by intro; rfl) :
    Table key where
  rows := t.rows.map fun r => if key r = k then f r else r
  nodup := by
    have : (key ∘ fun r => if key r = k then f r else r) = key := by
      funext r
      by_cases h : key r = k <;> simp [h, hf]
    rw [List.map_map, this]
    exact t.nodup

def erase (t : Table key) (k : κ) : Table key := t.filter fun r => key r ≠ k

/-- A row of a new key at the end; `none` where the key is taken. -/
def insert? (t : Table key) (r : ρ) : Option (Table key) :=
  if h : key r ∈ t.keys then none
  else some ⟨t.rows ++ [r], by
    rw [List.map_append, List.map_singleton, ← List.concat_eq_append, List.nodup_concat]
    exact ⟨h, t.nodup⟩⟩

/-- A row in place of the one with its key, or at the end where there is none. -/
def set (t : Table key) (r : ρ) : Table key :=
  if h : key r ∈ t.keys then
    ⟨t.rows.map fun q => if key q = key r then r else q, by
      have : (key ∘ fun q => if key q = key r then r else q) = key := by
        funext q
        by_cases h : key q = key r <;> simp [h]
      rw [List.map_map, this]
      exact t.nodup⟩
  else ⟨t.rows ++ [r], by
    rw [List.map_append, List.map_singleton, ← List.concat_eq_append, List.nodup_concat]
    exact ⟨h, t.nodup⟩⟩

theorem get?_eq_some_iff {t : Table key} {k : κ} {r : ρ} :
    t.get? k = some r ↔ r ∈ t.rows ∧ key r = k := by
  constructor
  · intro h
    exact ⟨List.mem_of_find?_eq_some h, by simpa using List.find?_some h⟩
  · rintro ⟨hr, rfl⟩
    rcases hf : t.get? (key r) with _ | q
    · simpa using List.find?_eq_none.1 hf r hr
    · have hq := List.mem_of_find?_eq_some hf
      have hk : key q = key r := by simpa using List.find?_some hf
      rw [List.inj_on_of_nodup_map t.nodup hq hr hk]

theorem get?_eq_none_iff {t : Table key} {k : κ} : t.get? k = none ↔ k ∉ t.keys := by
  simp [get?, keys]

theorem get?_isSome_iff {t : Table key} {k : κ} : (t.get? k).isSome ↔ k ∈ t.keys := by
  rw [← not_iff_not, ← get?_eq_none_iff, Option.not_isSome_iff_eq_none]

@[simp] theorem get?_empty (k : κ) : (empty : Table key).get? k = none := rfl

section
variable (t : Table key) {f : ρ → ρ} (hf : ∀ r, key (f r) = key r)

omit [DecidableEq κ] in
@[simp] theorem keys_map : (t.map f hf).keys = t.keys := by
  have : key ∘ f = key := funext hf
  rw [keys, keys, map, List.map_map, this]

theorem get?_map (k : κ) : (t.map f hf).get? k = (t.get? k).map f := by
  have : ((fun r => decide (key r = k)) ∘ f) = fun r => decide (key r = k) := by
    funext r
    simp [hf]
  rw [get?, get?, map, List.find?_map, this]

theorem insert?_map (r : ρ) : (t.map f hf).insert? (f r) = (t.insert? r).map fun u => u.map f hf := by
  have hkeys : key (f r) ∈ (t.map f hf).keys ↔ key r ∈ t.keys := by rw [keys_map, hf]
  unfold insert?
  by_cases h : key r ∈ t.keys
  · rw [dif_pos (hkeys.2 h), dif_pos h]
    rfl
  · rw [dif_neg (mt hkeys.1 h), dif_neg h]
    simp [map]

theorem set_map (r : ρ) : (t.map f hf).set (f r) = (t.set r).map f hf := by
  have hkeys : key (f r) ∈ (t.map f hf).keys ↔ key r ∈ t.keys := by rw [keys_map, hf]
  apply ext
  unfold set
  by_cases h : key r ∈ t.keys
  · rw [dif_pos (hkeys.2 h), dif_pos h]
    simp only [map, List.map_map]
    congr 1
    funext q
    by_cases hq : key q = key r <;> simp [hf, hq]
  · rw [dif_neg (mt hkeys.1 h), dif_neg h]
    simp [map]

end

@[simp] theorem keys_modify (t : Table key) (k : κ) (f : ρ → ρ) (hf : ∀ r, key (f r) = key r) :
    (t.modify k f hf).keys = t.keys := by
  simp only [keys, modify, List.map_map]
  congr 1
  funext r
  by_cases h : key r = k <;> simp [h, hf]

theorem get?_modify (t : Table key) (k j : κ) (f : ρ → ρ) (hf : ∀ r, key (f r) = key r) :
    (t.modify k f hf).get? j = if j = k then (t.get? k).map f else t.get? j := by
  simp only [get?, modify, List.find?_map]
  by_cases h : j = k
  · subst j
    have : ((fun r => decide (key r = k)) ∘ fun r => if key r = k then f r else r) =
        fun r => decide (key r = k) := by
      funext r
      by_cases hr : key r = k <;> simp [hr, hf]
    rw [this, if_pos rfl]
    rcases hg : t.rows.find? (fun r => key r = k) with _ | r
    · rfl
    · have hk : key r = k := by simpa using List.find?_some hg
      simp [hk]
  · have : ((fun r => decide (key r = j)) ∘ fun r => if key r = k then f r else r) =
        fun r => decide (key r = j) := by
      funext r
      by_cases hr : key r = k <;> simp [hr, hf]
    rw [this, if_neg h]
    rcases hg : t.rows.find? (fun r => key r = j) with _ | r
    · rfl
    · have hk : key r = j := by simpa using List.find?_some hg
      simp [hk, h]

/-- Rows of another key are not touched. -/
theorem get?_modify_ne {t : Table key} {k j : κ} {f : ρ → ρ} (hf : ∀ r, key (f r) = key r)
    (h : j ≠ k) : (t.modify k f hf).get? j = t.get? j := by
  rw [get?_modify, if_neg h]

/-- A row's update moves the count of a property by that row's change of it. -/
theorem countP_modify {t : Table key} {k : κ} {r : ρ} (f : ρ → ρ) (hf : ∀ r, key (f r) = key r)
    (h : t.get? k = some r) (p : ρ → Bool) :
    (t.modify k f hf).rows.countP p + (if p r then 1 else 0) =
      t.rows.countP p + (if p (f r) then 1 else 0) := by
  obtain ⟨hr, rfl⟩ := get?_eq_some_iff.1 h
  obtain ⟨pre, post, hrows⟩ := List.append_of_mem hr
  have hnd := t.nodup
  rw [hrows, List.map_append, List.map_cons, List.nodup_append, List.nodup_cons] at hnd
  have hid : ∀ l : List ρ, (∀ q ∈ l, key q ≠ key r) →
      l.map (fun q => if key q = key r then f q else q) = l := by
    intro l hl
    calc l.map (fun q => if key q = key r then f q else q) = l.map id :=
          List.map_congr_left fun q hq => if_neg (hl q hq)
      _ = l := List.map_id l
  have hpre := hid pre fun q hq => hnd.2.2 _ (List.mem_map_of_mem hq) _ (by simp)
  have hpost := hid post fun q hq he => hnd.2.1.1 (he ▸ List.mem_map_of_mem hq)
  simp only [modify, hrows, List.map_append, List.map_cons, hpre, hpost, if_true,
    List.countP_append, List.countP_cons]
  omega

theorem get?_filter {t : Table key} {p : ρ → Bool} {k : κ} :
    (t.filter p).get? k = (t.get? k).filter p := by
  apply Option.ext
  intro r
  rw [get?_eq_some_iff, Option.filter_eq_some_iff, mem_filter, get?_eq_some_iff]
  tauto

theorem mem_keys_erase {t : Table key} {k j : κ} : j ∈ (t.erase k).keys ↔ j ∈ t.keys ∧ j ≠ k := by
  simp only [keys, List.mem_map, erase, mem_filter, decide_eq_true_eq]
  constructor
  · rintro ⟨r, ⟨hr, hk⟩, rfl⟩
    exact ⟨⟨r, hr, rfl⟩, hk⟩
  · rintro ⟨⟨r, hr, rfl⟩, hk⟩
    exact ⟨r, ⟨hr, hk⟩, rfl⟩

theorem get?_erase (t : Table key) (k j : κ) :
    (t.erase k).get? j = if j = k then none else t.get? j := by
  rw [erase, get?_filter]
  rcases ht : t.get? j with _ | r
  · simp
  · have hr := (get?_eq_some_iff.1 ht).2
    by_cases h : j = k <;> simp [hr, h]

theorem rows_insert? {t u : Table key} {r : ρ} (h : t.insert? r = some u) :
    u.rows = t.rows ++ [r] ∧ key r ∉ t.keys := by
  unfold insert? at h
  split at h
  · cases h
  · rename_i hk
    cases h
    exact ⟨rfl, hk⟩

theorem get?_insert? {t u : Table key} {r : ρ} (h : t.insert? r = some u) (k : κ) :
    u.get? k = if k = key r then some r else t.get? k := by
  obtain ⟨hu, hk⟩ := rows_insert? h
  split
  · rename_i he
    exact get?_eq_some_iff.2 ⟨by simp [hu], he.symm⟩
  · rename_i he
    have hne : ¬ key r = k := fun h => he h.symm
    simp [get?, hu, List.find?_append, hne]

theorem get?_set (t : Table key) (r : ρ) (k : κ) :
    (t.set r).get? k = if k = key r then some r else t.get? k := by
  by_cases hk : key r ∈ t.keys
  · have hrows : (t.set r).rows = t.rows.map fun q => if key q = key r then r else q := by
      simp [set, hk]
    split
    · rename_i he
      obtain ⟨q, hq, hqk⟩ := List.mem_map.1 hk
      exact get?_eq_some_iff.2 ⟨hrows ▸ List.mem_map.2 ⟨q, hq, if_pos hqk⟩, he.symm⟩
    · rename_i he
      apply Option.ext
      intro p
      rw [get?_eq_some_iff, get?_eq_some_iff, hrows, List.mem_map]
      constructor
      · rintro ⟨⟨q, hq, rfl⟩, rfl⟩
        by_cases h : key q = key r
        · rw [if_pos h] at he
          exact absurd rfl he
        · exact ⟨by rwa [if_neg h], rfl⟩
      · rintro ⟨hp, rfl⟩
        exact ⟨⟨p, hp, if_neg he⟩, rfl⟩
  · have h : t.insert? r = some (t.set r) := by simp [insert?, set, hk]
    exact get?_insert? h k

theorem mem_rows_set {t : Table key} {r q : ρ} (h : q ∈ (t.set r).rows) : q = r ∨ q ∈ t.rows := by
  have hq : (t.set r).get? (key q) = some q := get?_eq_some_iff.2 ⟨h, rfl⟩
  rw [get?_set] at hq
  split at hq
  · exact .inl (Option.some.inj hq).symm
  · exact .inr (get?_eq_some_iff.1 hq).1

/-- A row that has not the property, in place of one that had it not. -/
theorem filter_rows_set {t : Table key} {r : ρ} {p : ρ → Bool} (hr : p r = false)
    (hold : ∀ q ∈ t.rows, key q = key r → p q = false) : (t.set r).rows.filter p = t.rows.filter p := by
  unfold set
  split
  · change (t.rows.map fun q => if key q = key r then r else q).filter p = t.rows.filter p
    generalize t.rows = l at hold
    induction l with
    | nil => rfl
    | cons q l ih =>
      rw [List.forall_mem_cons] at hold
      rw [List.map_cons, List.filter_cons, List.filter_cons, ih hold.2]
      by_cases hq : key q = key r
      · simp [hq, hr, hold.1 hq]
      · simp [hq]
  · change (t.rows ++ [r]).filter p = t.rows.filter p
    simp [List.filter_append, hr]

theorem mem_keys_set {t : Table key} {r : ρ} {k : κ} :
    k ∈ (t.set r).keys ↔ k = key r ∨ k ∈ t.keys := by
  rw [← get?_isSome_iff, ← get?_isSome_iff, get?_set]
  by_cases h : k = key r <;> simp [h]

theorem keys_set (t : Table key) (r : ρ) :
    (t.set r).keys = if key r ∈ t.keys then t.keys else t.keys ++ [key r] := by
  by_cases h : key r ∈ t.keys
  · have hfix : (key ∘ fun q => if key q = key r then r else q) = key := by
      funext q
      by_cases hq : key q = key r <;> simp [hq]
    have hset : (t.set r).rows = t.rows.map fun q => if key q = key r then r else q := by simp [set, h]
    rw [if_pos h, keys, hset, List.map_map, hfix, keys]
  · have hset : (t.set r).rows = t.rows ++ [r] := by simp [set, h]
    rw [if_neg h, keys, hset, List.map_append, keys, List.map_singleton]

theorem mem_keys_foldl_set (rows : List ρ) {t : Table key} {k : κ} :
    k ∈ (rows.foldl set t).keys ↔ k ∈ rows.map key ∨ k ∈ t.keys := by
  induction rows generalizing t with
  | nil => simp
  | cons r rows ih =>
    rw [List.foldl_cons, ih, mem_keys_set, List.map_cons, List.mem_cons]
    tauto

theorem mem_rows_foldl_set {rows : List ρ} {t : Table key} {q : ρ} (h : q ∈ (rows.foldl set t).rows) :
    q ∈ rows ∨ q ∈ t.rows := by
  induction rows generalizing t with
  | nil => exact .inr h
  | cons r rows ih =>
    rw [List.foldl_cons] at h
    rcases ih h with h | h
    · exact .inl (List.mem_cons_of_mem r h)
    · rcases mem_rows_set h with rfl | h
      · exact .inl List.mem_cons_self
      · exact .inr h

end Table

/-- An insertion-ordered dictionary: an update keeps the place of its key. -/
abbrev Dict (κ ν : Type*) := Table (Prod.fst : κ × ν → κ)

namespace Dict

variable [DecidableEq κ]

def lookup (d : Dict κ ν) (k : κ) : Option ν := (d.get? k).map Prod.snd

def put (d : Dict κ ν) (k : κ) (v : ν) : Dict κ ν := d.set (k, v)

/-- The entries of `e` put into `d` one after the other. -/
def update (d e : Dict κ ν) : Dict κ ν := e.rows.foldl (fun d p => d.put p.1 p.2) d

/-- Every value replaced, the keys as they are. -/
def mapValues {μ : Type*} (d : Dict κ ν) (f : ν → μ) : Dict κ μ where
  rows := d.rows.map fun p => (p.1, f p.2)
  nodup := by
    rw [List.map_map]
    exact d.nodup

theorem rows_put_of_notMem {d : Dict κ ν} {k : κ} {v : ν} (h : k ∉ d.keys) :
    (d.put k v).rows = d.rows ++ [(k, v)] := by
  simp [put, Table.set, h]

theorem lookup_eq_some_iff {d : Dict κ ν} {k : κ} {v : ν} : d.lookup k = some v ↔ (k, v) ∈ d.rows := by
  rw [lookup, Option.map_eq_some_iff]
  constructor
  · rintro ⟨p, hp, rfl⟩
    obtain ⟨hmem, rfl⟩ := Table.get?_eq_some_iff.1 hp
    exact hmem
  · intro hmem
    exact ⟨(k, v), Table.get?_eq_some_iff.2 ⟨hmem, rfl⟩, rfl⟩

theorem isSome_lookup_iff {d : Dict κ ν} {k : κ} : (d.lookup k).isSome ↔ k ∈ d.keys := by
  rw [lookup, Option.isSome_map]
  exact Table.get?_isSome_iff

theorem lookup_put (d : Dict κ ν) (k j : κ) (v : ν) :
    (d.put k v).lookup j = if j = k then some v else d.lookup j := by
  simp only [lookup, put, Table.get?_set]
  by_cases h : j = k <;> simp [h]

theorem lookup_erase (d : Dict κ ν) (k j : κ) :
    lookup (Table.erase d k) j = if j = k then none else d.lookup j := by
  rw [lookup, lookup, Table.get?_erase]
  split <;> rfl

theorem mem_keys_put {d : Dict κ ν} {k j : κ} {v : ν} :
    j ∈ (d.put k v).keys ↔ j = k ∨ j ∈ d.keys := Table.mem_keys_set

theorem lookup_foldl_put {l : List (κ × ν)} (hl : (l.map Prod.fst).Nodup) (d : Dict κ ν) (k : κ) :
    (l.foldl (fun d p => put d p.1 p.2) d).lookup k =
      ((l.find? fun p => p.1 = k).map Prod.snd).or (d.lookup k) := by
  induction l generalizing d with
  | nil => simp
  | cons p l ih =>
    rw [List.map_cons, List.nodup_cons] at hl
    rw [List.foldl_cons, ih hl.2, lookup_put]
    by_cases h : p.1 = k
    · have hnone : l.find? (fun q => q.1 = k) = none := by
        rw [List.find?_eq_none]
        rintro q hq hk
        rw [decide_eq_true_eq] at hk
        exact hl.1 (h ▸ hk ▸ List.mem_map_of_mem hq)
      simp [h, hnone]
    · simp [h, Ne.symm h]

/-- The entries of `e` come first. -/
theorem lookup_update (d e : Dict κ ν) (k : κ) : (d.update e).lookup k = (e.lookup k).or (d.lookup k) :=
  lookup_foldl_put e.nodup d k

end Dict

end Keyed
