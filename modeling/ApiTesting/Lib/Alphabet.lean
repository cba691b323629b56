import Mathlib.Data.Int.Notation
import Mathlib.Data.Nat.Notation
import Mathlib.Tactic.Common

/-! Texts over an alphabet, which is given by the characters it has. What is put
together out of such texts is one again, and it is one only if its parts are. -/

namespace Alphabet

variable {α β : Type*} (p : α → Bool)

def madeOf (s : List α) : Bool := s.all p

variable {p} {s t sep : List α} {ss : List (List α)}

theorem madeOf_iff : madeOf p s ↔ ∀ c ∈ s, p c := List.all_eq_true

@[simp] theorem madeOf_append_iff : madeOf p (s ++ t) ↔ madeOf p s ∧ madeOf p t := by
  simp only [madeOf, List.all_append, Bool.and_eq_true]

/-- A text spelled in the characters of another alphabet. -/
theorem madeOf_map_iff {f : β → α} {s : List β} : madeOf p (s.map f) ↔ madeOf (fun c => p (f c)) s := by
  rw [madeOf, List.all_map]
  rfl

/-- Texts joined by a separator that is over the alphabet itself. -/
theorem madeOf_intercalate_iff (hsep : madeOf p sep) :
    madeOf p (sep.intercalate ss) ↔ ∀ s ∈ ss, madeOf p s := by
  induction ss with
  | nil => simp [madeOf]
  | cons s ss ih =>
    rw [List.forall_mem_cons]
    cases ss with
    | nil => simp
    | cons s' ss =>
      rw [List.intercalate_cons_cons, madeOf_append_iff, madeOf_append_iff, ih]
      simp only [hsep, and_true]

section
variable {p : Char → Bool} (hdigit : ∀ c : Char, c.isDigit → p c)

include hdigit

/-- Numbers, over an alphabet with the digits. -/
theorem madeOf_nat (n : ℕ) : madeOf p (toString n).toList := by
  rw [madeOf_iff]
  intro c hc
  have hmem : c ∈ Nat.toDigits 10 n := by rwa [← Nat.toList_repr]
  exact hdigit c (Nat.isDigit_of_mem_toDigits (by decide) (by decide) hmem)

theorem madeOf_int (hminus : p '-') (i : ℤ) : madeOf p (toString i).toList := by
  cases i with
  | ofNat n => exact madeOf_nat hdigit n
  | negSucc n =>
    have htext : (toString (Int.negSucc n)).toList = '-' :: (toString (n + 1)).toList := by
      change ("-" ++ toString (n + 1)).toList = _
      rw [String.toList_append]
      rfl
    rw [htext, madeOf, List.all_cons, hminus]
    exact madeOf_nat hdigit (n + 1)

end

end Alphabet
