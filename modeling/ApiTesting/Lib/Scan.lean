import Mathlib.Data.List.Basic

/-! A leftmost scan that looks at no element twice. Where the matcher finds a
piece, the piece is one token and the scan goes on behind it; every other element
is a token of its own. -/

namespace Scan

variable {α β : Type*}

inductive Token (α β : Type*)
  | element (x : α)
  | piece (found : β) (source : List α)

namespace Token

def source : Token α β → List α
  | .element x => [x]
  | .piece _ source => source

def isPiece : Token α β → Bool
  | .element _ => false
  | .piece _ _ => true

end Token

def sources (ts : List (Token α β)) : List α := ts.flatMap Token.source

@[simp] theorem sources_nil : sources ([] : List (Token α β)) = [] := rfl

@[simp] theorem sources_cons (t : Token α β) (ts : List (Token α β)) :
    sources (t :: ts) = t.source ++ sources ts := List.flatMap_cons

@[simp] theorem sources_append (ts us : List (Token α β)) :
    sources (ts ++ us) = sources ts ++ sources us := List.flatMap_append

section
variable (matcher : List α → Option (β × ℕ))

/-- The tokens of a list, with `skip` elements of the last piece still ahead. -/
def scan : ℕ → List α → List (Token α β)
  | _, [] => []
  | skip + 1, _ :: xs => scan skip xs
  | 0, x :: xs =>
    match matcher (x :: xs) with
    | some (found, length) => .piece found ((x :: xs).take length) :: scan (length - 1) xs
    | none => .element x :: scan 0 xs

/-- A match takes something, and no more than there is. -/
def Consuming : Prop := ∀ xs found length, matcher xs = some (found, length) → 0 < length ∧ length ≤ xs.length

end

variable {matcher : List α → Option (β × ℕ)}

@[simp] theorem scan_nil (skip : ℕ) : scan matcher skip [] = [] := by
  cases skip <;> rfl

theorem scan_eq_drop (skip : ℕ) (xs : List α) : scan matcher skip xs = scan matcher 0 (xs.drop skip) := by
  induction xs generalizing skip with
  | nil => simp
  | cons x xs ih =>
    cases skip with
    | zero => rfl
    | succ skip => exact ih skip

theorem scan_of_none {x : α} {xs : List α} (h : matcher (x :: xs) = none) :
    scan matcher 0 (x :: xs) = .element x :: scan matcher 0 xs := by
  rw [scan, h]

theorem scan_of_some (hc : Consuming matcher) {xs : List α} {found : β} {length : ℕ}
    (h : matcher xs = some (found, length)) :
    scan matcher 0 xs = .piece found (xs.take length) :: scan matcher 0 (xs.drop length) := by
  obtain ⟨hpos, hle⟩ := hc xs found length h
  cases xs with
  | nil =>
    rw [List.length_nil] at hle
    omega
  | cons x xs =>
    obtain ⟨n, rfl⟩ : ∃ n, length = n + 1 := ⟨length - 1, by omega⟩
    rw [scan, h]
    simp only [Nat.add_sub_cancel, List.drop_succ_cons]
    rw [scan_eq_drop]

/-- Induction along the scan: an element no piece begins with, or a piece. -/
theorem scan_induction (hc : Consuming matcher) {motive : List α → Prop} (nil : motive [])
    (element : ∀ x xs, matcher (x :: xs) = none → motive xs → motive (x :: xs))
    (piece : ∀ xs found length, matcher xs = some (found, length) → motive (xs.drop length) → motive xs)
    (xs : List α) : motive xs := by
  induction h : xs.length using Nat.strongRecOn generalizing xs with
  | ind n ih =>
    subst h
    rcases hm : matcher xs with _ | ⟨found, length⟩
    · cases xs with
      | nil => exact nil
      | cons x xs => exact element x xs hm (ih xs.length (by simp) xs rfl)
    · obtain ⟨hpos, hle⟩ := hc xs found length hm
      refine piece xs found length hm (ih _ ?_ _ rfl)
      rw [List.length_drop]
      omega

/-- The tokens put together again. -/
theorem sources_scan (hc : Consuming matcher) (xs : List α) : sources (scan matcher 0 xs) = xs := by
  induction xs using scan_induction hc with
  | nil => rfl
  | element x xs hm ih =>
    rw [scan_of_none hm, sources_cons, ih]
    rfl
  | piece xs found length hm ih =>
    rw [scan_of_some hc hm, sources_cons, ih]
    exact List.take_append_drop length xs

/-- From any token on, the scan is the scan of what is left. -/
theorem scan_sources (hc : Consuming matcher) {xs : List α} {before after : List (Token α β)}
    (h : scan matcher 0 xs = before ++ after) : scan matcher 0 (sources after) = after := by
  induction before generalizing xs with
  | nil =>
    rw [List.nil_append] at h
    rw [← h, sources_scan hc]
  | cons t before ih =>
    rcases hm : matcher xs with _ | ⟨found, length⟩
    · cases xs with
      | nil => simp at h
      | cons x xs =>
        rw [scan_of_none hm, List.cons_append, List.cons.injEq] at h
        exact ih h.2
    · rw [scan_of_some hc hm, List.cons_append, List.cons.injEq] at h
      exact ih h.2

/-- No piece begins where the scan has left an element. -/
theorem matcher_of_element (hc : Consuming matcher) {xs : List α} {x : α}
    {before after : List (Token α β)} (h : scan matcher 0 xs = before ++ .element x :: after) :
    matcher (x :: sources after) = none := by
  have hs := scan_sources hc h
  rw [sources_cons] at hs
  rcases hm : matcher (x :: sources after) with _ | ⟨found, length⟩
  · rfl
  · rw [Token.source, List.singleton_append, scan_of_some hc hm, List.cons.injEq] at hs
    cases hs.1

/-- A piece is what the matcher finds where it begins. -/
theorem matcher_of_piece (hc : Consuming matcher) {xs source : List α} {found : β}
    {before after : List (Token α β)} (h : scan matcher 0 xs = before ++ .piece found source :: after) :
    matcher (source ++ sources after) = some (found, source.length) := by
  have hs := scan_sources hc h
  rw [sources_cons, Token.source] at hs
  rcases hm : matcher (source ++ sources after) with _ | ⟨found', length⟩
  · rcases hx : source ++ sources after with _ | ⟨x, xs⟩
    · rw [hx] at hs
      simp at hs
    · rw [hx] at hm hs
      rw [scan_of_none hm, List.cons.injEq] at hs
      cases hs.1
  · rw [scan_of_some hc hm, List.cons.injEq, Token.piece.injEq] at hs
    obtain ⟨⟨rfl, hsource⟩, -⟩ := hs
    have hle := (hc _ _ _ hm).2
    have hlen := congrArg List.length hsource
    rw [List.length_take, Nat.min_eq_left hle] at hlen
    rw [hlen]

/-- Tokens without a piece are the elements they stand for. -/
theorem eq_map_element {ts : List (Token α β)} (h : ∀ t ∈ ts, t.isPiece = false) :
    ts = (sources ts).map .element := by
  induction ts with
  | nil => rfl
  | cons t ts ih =>
    cases t with
    | element x =>
      rw [sources_cons, Token.source, List.singleton_append, List.map_cons,
        ← ih fun t ht => h t (List.mem_cons_of_mem _ ht)]
    | piece found source => cases h _ List.mem_cons_self

/-! Tokens put together in another way, where an element stays what it is. -/

section
variable {fill : Token α β → List α} {x : α} {ts : List (Token α β)}

theorem flatMap_map_element (helement : ∀ y, fill (.element y) = [y]) (xs : List α) :
    (xs.map .element).flatMap fill = xs := by
  induction xs with
  | nil => rfl
  | cons x xs ih => rw [List.map_cons, List.flatMap_cons, helement, ih, List.singleton_append]

/-- What no piece is filled with stems from an element. -/
theorem split_of_flatMap (helement : ∀ y, fill (.element y) = [y])
    (hpiece : ∀ found source, .piece found source ∈ ts → x ∉ fill (.piece found source))
    {before after : List α} (h : ts.flatMap fill = before ++ x :: after) :
    ∃ ts₁ ts₂, ts = ts₁ ++ .element x :: ts₂ ∧ ts₁.flatMap fill = before ∧ ts₂.flatMap fill = after := by
  induction ts generalizing before with
  | nil => simp at h
  | cons t ts ih =>
    rw [List.flatMap_cons] at h
    have ih := fun before => @ih (fun found source hm => hpiece found source (List.mem_cons_of_mem t hm)) before
    rcases List.append_eq_append_iff.1 h with ⟨rest, hbefore, hrest⟩ | ⟨rest, hfill, hrest⟩
    · obtain ⟨ts₁, ts₂, rfl, h₁, h₂⟩ := ih rest hrest
      exact ⟨t :: ts₁, ts₂, rfl, by rw [List.flatMap_cons, h₁, hbefore], h₂⟩
    · cases rest with
      | nil =>
        rw [List.nil_append] at hrest
        obtain ⟨ts₁, ts₂, rfl, h₁, h₂⟩ := ih [] hrest.symm
        exact ⟨t :: ts₁, ts₂, rfl, by rw [List.flatMap_cons, h₁, hfill, List.append_nil, List.append_nil], h₂⟩
      | cons y rest =>
        rw [List.cons_append, List.cons.injEq] at hrest
        obtain ⟨rfl, hafter⟩ := hrest
        cases t with
        | element z =>
          rw [helement, List.singleton_eq_append_iff] at hfill
          simp only [List.cons.injEq, reduceCtorEq, and_false, or_false] at hfill
          obtain ⟨rfl, rfl, rfl⟩ := hfill
          exact ⟨[], ts, rfl, rfl, by simpa using hafter.symm⟩
        | piece found source =>
          have hx : x ∈ fill (.piece found source) := by rw [hfill]; simp
          exact absurd hx (hpiece found source List.mem_cons_self)

end

end Scan
