import Mathlib.Data.List.Sort
import Mathlib.Tactic.Common

/-! Rows read in an order that leaves ties open: the rows that tie may come in another order
in each query. Read page by page, a row can be on two pages, or on none; it cannot where no
page ends between two rows that tie. And a row is last in every query where it ties with no
other row and none comes after it. -/

namespace Paging

variable {ρ : Type*}

/-- An order of the rows in agreement with `le`. -/
structure Orders (le : ρ → ρ → Prop) (rows order : List ρ) : Prop where
  perm : order.Perm rows
  sorted : order.Pairwise le

def page (limit offset : ℕ) (order : List ρ) : List ρ := (order.drop offset).take limit

/-- The responses to a client that asks for the page at `offset`, each of them rows and a
total, and for the next one as long as there is more. -/
inductive Fetched (answers : ℕ → List ρ × ℕ → Prop) (limit : ℕ) : ℕ → List (List ρ × ℕ) → Prop
  | last {offset response} (h : answers offset response) (hend : response.2 ≤ offset + limit) :
    Fetched answers limit offset [response]
  | next {offset response responses} (h : answers offset response)
    (hmore : offset + limit < response.2) (hrest : Fetched answers limit (offset + limit) responses) :
    Fetched answers limit offset (response :: responses)

/-- All rows a client was sent, one page after the other. -/
def contents (responses : List (List ρ × ℕ)) : List ρ := responses.flatMap Prod.fst

theorem contents_cons (response : List ρ × ℕ) (responses : List (List ρ × ℕ)) :
    contents (response :: responses) = response.1 ++ contents responses := rfl

/-- Each response answers one of its requests. -/
theorem Fetched.answered {answers : ℕ → List ρ × ℕ → Prop} {limit offset : ℕ}
    {responses : List (List ρ × ℕ)} (h : Fetched answers limit offset responses) :
    ∀ response ∈ responses, ∃ start, answers start response := by
  induction h with
  | @last offset response h hend =>
    intro r hr
    obtain rfl := List.mem_singleton.1 hr
    exact ⟨offset, h⟩
  | @next offset response responses h hmore hrest ih =>
    rw [List.forall_mem_cons]
    exact ⟨⟨offset, h⟩, ih⟩

theorem page_append_drop (limit offset : ℕ) (order : List ρ) :
    page limit offset order ++ order.drop (offset + limit) = order.drop offset := by
  rw [page, ← List.drop_drop, List.take_append_drop]

theorem take_append_page (limit offset : ℕ) (order : List ρ) :
    order.take offset ++ page limit offset order = order.take (offset + limit) := by
  rw [page, List.take_add]

/-- The last page. -/
theorem page_eq_drop {limit offset : ℕ} {order : List ρ} (h : order.length ≤ offset + limit) :
    page limit offset order = order.drop offset := by
  refine List.take_of_length_le ?_
  rw [List.length_drop]
  omega

section
variable (le : ρ → ρ → Prop) [DecidableRel le] (rows : List ρ)

/-- A page of the rows, in some order. -/
def Answers (limit offset : ℕ) (response : List ρ × ℕ) : Prop :=
  ∃ order, Orders le rows order ∧ response = (page limit offset order, rows.length)

/-- The number of rows before `r` in every order. -/
def before (r : ρ) : ℕ := rows.countP fun q => ¬ le r q

/-- The number of rows before the first that is after `r` in every order. -/
def upTo (r : ρ) : ℕ := rows.countP fun q => le q r

/-- The first `n` rows are the same in every order: no rows tie across the `n`-th place. -/
def Cut (n : ℕ) : Prop := ∀ r ∈ rows, ¬ (before le rows r < n ∧ n < upTo le rows r)

end

/-- Where a property only ever ends, the elements that have it are the first ones. -/
theorem getElem_iff_lt_countP {l : List ρ} {p : ρ → Bool}
    (hl : l.Pairwise fun a b => p b = true → p a = true) {i : ℕ} (hi : i < l.length) :
    p l[i] = true ↔ i < l.countP p := by
  induction l generalizing i with
  | nil => cases hi
  | cons a l ih =>
    rw [List.pairwise_cons] at hl
    cases ha : p a with
    | true =>
      rw [List.countP_cons_of_pos ha]
      cases i with
      | zero => simp [ha]
      | succ i => simpa using ih hl.2 (by simpa using hi)
    | false =>
      have hnone : ∀ b ∈ l, p b = false := by
        intro b hb
        rw [← Bool.not_eq_true]
        intro hpb
        simp [hl.1 b hb hpb] at ha
      have hcount : (a :: l).countP p = 0 := by
        rw [List.countP_eq_zero, List.forall_mem_cons]
        exact ⟨by simp [ha], fun b hb => by simp [hnone b hb]⟩
      rw [hcount]
      cases i with
      | zero => simp [ha]
      | succ i => simp [hnone _ (List.getElem_mem _)]

/-- The first `n` elements, where those are the ones with a property. -/
theorem take_eq_filter {l : List ρ} {p : ρ → Bool} {n : ℕ}
    (h : ∀ i (hi : i < l.length), p l[i] = true ↔ i < n) : l.take n = l.filter p := by
  induction l generalizing n with
  | nil => simp
  | cons a l ih =>
    have htail : ∀ i (hi : i < l.length), p l[i] = true ↔ i + 1 < n := by
      intro i hi
      exact h (i + 1) (by simpa using hi)
    have hhead : p a = true ↔ 0 < n := h 0 (by simp)
    cases n with
    | zero =>
      have hnone : l.filter p = [] := by
        rw [← ih (n := 0) fun i hi => by simp [htail i hi]]
        rfl
      rw [List.filter_cons_of_neg (by simp [hhead]), hnone]
      rfl
    | succ n =>
      rw [List.filter_cons_of_pos (hhead.2 (by omega)), List.take_succ_cons,
        ih fun i hi => by rw [htail i hi]; omega]

section
variable {le : ρ → ρ → Prop} {rows A B : List ρ} {n limit offset : ℕ}

theorem Orders.length (h : Orders le rows A) : A.length = rows.length := h.perm.length_eq

/-- A client that always gets the same order is sent the rest of it. -/
theorem fetched_rest (hlimit : 0 < limit) (hA : Orders le rows A) (offset : ℕ) :
    ∃ responses, Fetched (Answers le rows limit) limit offset responses ∧ contents responses = A.drop offset := by
  induction hleft : rows.length - offset using Nat.strong_induction_on generalizing offset with
  | _ left ih =>
    have hanswer : Answers le rows limit offset (page limit offset A, rows.length) := ⟨A, hA, rfl⟩
    by_cases hend : rows.length ≤ offset + limit
    · refine ⟨_, .last hanswer hend, ?_⟩
      rw [contents_cons, page_eq_drop (hA.length.trans_le hend)]
      exact List.append_nil _
    · have hmore : offset + limit < rows.length := Nat.lt_of_not_le hend
      obtain ⟨responses, hrest, hcontents⟩ := ih _ (by omega) (offset + limit) rfl
      refine ⟨_, .next hanswer hmore hrest, ?_⟩
      rw [contents_cons, hcontents, page_append_drop]

/-- It may get any order next. -/
theorem fetched_next (hlimit : 0 < limit) (hA : Orders le rows A) (offset : ℕ) :
    ∃ responses rest, Fetched (Answers le rows limit) limit offset responses ∧
      contents responses = page limit offset A ++ rest := by
  have hanswer : Answers le rows limit offset (page limit offset A, rows.length) := ⟨A, hA, rfl⟩
  by_cases hend : rows.length ≤ offset + limit
  · exact ⟨_, [], .last hanswer hend, rfl⟩
  · obtain ⟨responses, hrest, -⟩ := fetched_rest hlimit hA (offset + limit)
    exact ⟨_, _, .next hanswer (Nat.lt_of_not_le hend) hrest, rfl⟩

/-- What it was sent before it came to an offset. -/
theorem fetched_after (hA : Orders le rows A) {k : ℕ} {responses : List (List ρ × ℕ)}
    (h : Fetched (Answers le rows limit) limit (k * limit) responses) (hmore : k * limit < rows.length) :
    ∃ all, Fetched (Answers le rows limit) limit 0 all ∧
      contents all = A.take (k * limit) ++ contents responses := by
  induction k generalizing responses with
  | zero => exact ⟨responses, by simpa using h, by simp⟩
  | succ k ih =>
    rw [Nat.succ_mul] at h hmore
    have hanswer : Answers le rows limit (k * limit) (page limit (k * limit) A, rows.length) := ⟨A, hA, rfl⟩
    obtain ⟨all, hall, hcontents⟩ := ih (.next hanswer hmore h) (by omega)
    refine ⟨all, hall, ?_⟩
    rw [hcontents, contents_cons, ← List.append_assoc, take_append_page, Nat.succ_mul]

/-- Two neighbours that tie can be put the other way round. -/
theorem Orders.swap {pre post : List ρ} {q r : ρ} (h : Orders le rows (pre ++ q :: r :: post)) (htie : le r q) :
    Orders le rows (pre ++ r :: q :: post) where
  perm := ((List.Perm.swap q r post).append_left pre).trans h.perm
  sorted := by
    have hsorted := h.sorted
    simp only [List.pairwise_append, List.pairwise_cons, List.forall_mem_cons] at hsorted ⊢
    obtain ⟨hpre, ⟨⟨-, hfirst⟩, hsecond, hpost⟩, hall⟩ := hsorted
    exact ⟨hpre, ⟨⟨htie, hsecond⟩, hfirst, hpost⟩, fun a ha => ⟨(hall a ha).2.1, (hall a ha).1, (hall a ha).2.2⟩⟩

/-- A row that the first page leaves out comes after a full page of rows. -/
theorem Orders.left_out {r : ρ} (h : Orders le rows A) (hr : r ∈ rows) (hout : r ∉ A.take n) :
    (A.take n).length = n ∧ ∀ q ∈ A.take n, le q r := by
  have hr' : r ∈ A.take n ++ A.drop n := by
    rw [List.take_append_drop]
    exact h.perm.mem_iff.2 hr
  have hdrop : r ∈ A.drop n := (List.mem_append.1 hr').resolve_left hout
  refine ⟨?_, fun q hq => ?_⟩
  · have hlt : 0 < (A.drop n).length := List.length_pos_of_mem hdrop
    rw [List.length_drop] at hlt
    rw [List.length_take]
    omega
  · have hsorted := h.sorted
    rw [← List.take_append_drop n A, List.pairwise_append] at hsorted
    exact hsorted.2.2 q hq r hdrop

variable [DecidableRel le] [IsTrans ρ le]

/-- The places a row can have in an order. -/
theorem Orders.before_le (h : Orders le rows A) {i : ℕ} (hi : i < A.length) (r : ρ) :
    before le rows r ≤ i ↔ le r A[i] := by
  have hmono : A.Pairwise fun a b => decide (¬ le r b) = true → decide (¬ le r a) = true := by
    refine h.sorted.imp fun {a b} hab hb => ?_
    simp only [decide_eq_true_eq] at hb ⊢
    exact fun hra => hb (trans_of le hra hab)
  have := getElem_iff_lt_countP hmono hi
  rw [before, ← h.perm.countP_eq, ← not_lt, ← this]
  simp

theorem Orders.lt_upTo (h : Orders le rows A) {i : ℕ} (hi : i < A.length) (r : ρ) :
    i < upTo le rows r ↔ le A[i] r := by
  have hmono : A.Pairwise fun a b => decide (le b r) = true → decide (le a r) = true := by
    refine h.sorted.imp fun {a b} hab hb => ?_
    simp only [decide_eq_true_eq] at hb ⊢
    exact trans_of le hab hb
  rw [upTo, ← h.perm.countP_eq, ← getElem_iff_lt_countP hmono hi]
  simp

variable [Std.Total le]

variable (le) in
theorem orders_insertionSort (rows : List ρ) : Orders le rows (rows.insertionSort le) :=
  ⟨List.perm_insertionSort le rows, List.pairwise_insertionSort le rows⟩

/-- The rows that every order puts at the first `n` places. -/
theorem Cut.take_eq (hcut : Cut le rows n) (h : Orders le rows A) :
    A.take n = A.filter fun r => upTo le rows r ≤ n := by
  refine take_eq_filter fun i hi => ?_
  have hself : le A[i] A[i] := refl_of le A[i]
  have hupTo := (h.lt_upTo hi A[i]).2 hself
  have hbefore := (h.before_le hi A[i]).2 hself
  have := hcut A[i] (h.perm.mem_iff.1 (List.getElem_mem hi))
  simp only [decide_eq_true_eq]
  omega

theorem Cut.take_perm (hcut : Cut le rows n) (hA : Orders le rows A) (hB : Orders le rows B) :
    (A.take n).Perm (B.take n) := by
  rw [hcut.take_eq hA, hcut.take_eq hB]
  exact (hA.perm.trans hB.perm.symm).filter _

theorem Cut.drop_perm (hcut : Cut le rows n) (hA : Orders le rows A) (hB : Orders le rows B) :
    (A.drop n).Perm (B.drop n) := by
  rw [← List.perm_append_left_iff (A.take n), List.take_append_drop]
  calc A.Perm B := hA.perm.trans hB.perm.symm
    _ = B.take n ++ B.drop n := (List.take_append_drop n B).symm
    List.Perm _ _ := (hcut.take_perm hB hA).append_right _

/-- From a cut on, with a cut at the end of each page, a client is sent what is left. -/
theorem Fetched.contents_perm {responses : List (List ρ × ℕ)}
    (h : Fetched (Answers le rows limit) limit offset responses)
    (hcut : ∀ k, Cut le rows (offset + k * limit)) (hA : Orders le rows A) :
    (contents responses).Perm (A.drop offset) := by
  have hhere : Cut le rows offset := by simpa using hcut 0
  induction h generalizing A with
  | @last offset response h hend =>
    obtain ⟨B, hB, rfl⟩ := h
    rw [contents_cons, page_eq_drop (hB.length.trans_le hend)]
    simpa [contents] using hhere.drop_perm hB hA
  | @next offset response responses h hmore hrest ih =>
    obtain ⟨B, hB, rfl⟩ := h
    have hlater : ∀ k, Cut le rows (offset + limit + k * limit) := by
      intro k
      have := hcut (k + 1)
      rwa [Nat.succ_mul, Nat.add_comm (k * limit), ← Nat.add_assoc] at this
    have htail := ih hlater hB (by simpa using hlater 0)
    rw [contents_cons]
    calc (page limit offset B ++ contents responses).Perm (page limit offset B ++ B.drop (offset + limit)) :=
          htail.append_left _
      _ = B.drop offset := page_append_drop limit offset B
      List.Perm _ _ := hhere.drop_perm hB hA

variable (le) in
/-- Page after page, a client is sent every row once, whatever the orders, just when no rows
tie across the end of a page. -/
theorem contents_perm_iff (hlimit : 0 < limit) (hnodup : rows.Nodup) :
    (∀ responses, Fetched (Answers le rows limit) limit 0 responses → (contents responses).Perm rows) ↔
      ∀ k, Cut le rows (k * limit) := by
  constructor
  · rintro hall k r hr ⟨hbefore, hupTo⟩
    have hA := orders_insertionSort le rows
    set A := rows.insertionSort le
    obtain ⟨i, hi⟩ : ∃ i, k * limit = i + 1 := Nat.exists_eq_succ_of_ne_zero (by omega)
    have hplace : i + 1 < A.length := by
      have : upTo le rows r ≤ rows.length := List.countP_le_length
      rw [hA.length]
      omega
    -- the rows on the two sides of the end of the page tie with `r`
    have hfirst : le r A[i] := (hA.before_le (by omega) r).1 (by omega)
    have hsecond : le A[i + 1] r := (hA.lt_upTo hplace r).1 (by omega)
    have hsplit : A = A.take i ++ A[i] :: A[i + 1] :: A.drop (i + 2) := by
      rw [List.getElem_cons_drop, List.getElem_cons_drop, List.take_append_drop]
    have hlength : (A.take i).length = i := by
      rw [List.length_take]
      omega
    have hB := Orders.swap (hsplit ▸ hA) (trans_of le hsecond hfirst)
    obtain ⟨responses, rest, hresponses, hcontents⟩ := fetched_next hlimit hB (k * limit)
    obtain ⟨all, hfetched, hboth⟩ := fetched_after hA hresponses (by rw [← hA.length]; omega)
    -- so the first of them can be sent twice
    have honce := (hall all hfetched).nodup_iff.2 hnodup
    rw [hboth, hcontents, List.nodup_append] at honce
    have hbefore : A[i] ∈ A.take (k * limit) := List.mem_take_iff_getElem.2 ⟨i, by omega, rfl⟩
    have hafter : A[i] ∈ page limit (k * limit) (A.take i ++ A[i + 1] :: A[i] :: A.drop (i + 2)) ++ rest := by
      refine List.mem_append_left _ (List.mem_iff_getElem?.2 ⟨0, ?_⟩)
      rw [page, List.getElem?_take_of_lt hlimit, List.getElem?_drop, hi, List.getElem?_append_right (by omega),
        hlength]
      simp
    exact honce.2.2 _ hbefore _ hafter rfl
  · intro hcut responses h
    have hA := orders_insertionSort le rows
    exact (h.contents_perm (fun k => by simpa using hcut k) hA).trans hA.perm

variable (le) in
/-- A row is the last one in every order just when no other row may come after it. -/
theorem last_iff {r : ρ} (hnodup : rows.Nodup) (hr : r ∈ rows) :
    (∀ order, Orders le rows order → order.getLast? = some r) ↔ ∀ q ∈ rows, q ≠ r → ¬ le r q := by
  constructor
  · intro hlast q hq hne hle
    obtain ⟨A, hA⟩ : ∃ A, Orders le rows A := ⟨_, orders_insertionSort le rows⟩
    obtain ⟨init, rfl⟩ := List.getLast?_eq_some_iff.1 (hlast A hA)
    have hmem : q ∈ init := by
      have := hA.perm.mem_iff.2 hq
      rw [List.mem_append, List.mem_singleton] at this
      exact this.resolve_right hne
    -- the row before the last one comes after `q`, so it can be put last
    obtain ⟨pre, y, rfl⟩ : ∃ pre y, init = pre ++ [y] :=
      ⟨_, _, (List.dropLast_append_getLast (List.ne_nil_of_mem hmem)).symm⟩
    rw [List.append_assoc, List.singleton_append] at hA
    have hqy : le q y := by
      rcases List.mem_append.1 hmem with hpre | hy
      · exact (List.pairwise_append.1 hA.sorted).2.2 q hpre y List.mem_cons_self
      · rw [List.mem_singleton.1 hy]
        exact refl_of le y
    have hother := hlast _ (hA.swap (trans_of le hle hqy))
    have hyr : y = r := by simpa using hother
    have honce := hA.perm.nodup_iff.2 hnodup
    rw [hyr, List.nodup_append] at honce
    simp at honce
  · intro hnone order horder
    have hmem : r ∈ order := horder.perm.mem_iff.2 hr
    obtain ⟨q, hq⟩ := Option.isSome_iff_exists.1 (List.getLast?_isSome.2 (List.ne_nil_of_mem hmem))
    obtain ⟨init, rfl⟩ := List.getLast?_eq_some_iff.1 hq
    rcases List.mem_append.1 hmem with hinit | hlast
    · -- another row at the end would have to come after it
      by_contra hne
      rw [hq, Option.some.injEq] at hne
      refine hnone q (horder.perm.mem_iff.1 (by simp)) hne ?_
      exact (List.pairwise_append.1 horder.sorted).2.2 r hinit q (by simp)
    · rw [hq, List.mem_singleton.1 hlast]

end

end Paging
