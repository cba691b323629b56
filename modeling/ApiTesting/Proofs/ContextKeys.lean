import ApiTesting.Spec.Queue

/-! The keys of the chain contexts. Two keys are equal only for one run and one data row, as
long as the ids of the runs are the 128 bits of a UUID. -/

namespace ApiTesting

theorem hexDigit_inj {m n : ℕ} (hm : m < 16) (hn : n < 16) (h : hexDigit m = hexDigit n) : m = n := by
  have hall : ∀ m ∈ List.range 16, ∀ n ∈ List.range 16, hexDigit m = hexDigit n → m = n := by decide
  exact hall m (List.mem_range.2 hm) n (List.mem_range.2 hn) h

theorem length_hex (width n : ℕ) : (hex width n).length = width := by simp [hex]

theorem hex_succ (width n : ℕ) : hex (width + 1) n = hexDigit (n / 16 ^ width % 16) :: hex width n := by
  simp [hex, List.range_succ]

/-- The digits tell the number, up to the width. -/
theorem mod_eq_of_hex_eq {width m n : ℕ} (h : hex width m = hex width n) :
    m % 16 ^ width = n % 16 ^ width := by
  induction width with
  | zero => simp [Nat.mod_one]
  | succ width ih =>
    rw [hex_succ, hex_succ, List.cons.injEq] at h
    have hdigit := hexDigit_inj (Nat.mod_lt _ (by decide)) (Nat.mod_lt _ (by decide)) h.1
    rw [pow_succ, Nat.mod_mul, Nat.mod_mul, ih h.2, hdigit]

theorem toList_uuidText (u : UUID) :
    (uuidText u).toList = hex 8 (u / 16 ^ 24) ++ ['-'] ++ hex 4 (u / 16 ^ 20) ++ ['-'] ++
      hex 4 (u / 16 ^ 16) ++ ['-'] ++ hex 4 (u / 16 ^ 12) ++ ['-'] ++ hex 12 u := by
  rw [uuidText, String.toList_ofList]

theorem length_uuidText (u : UUID) : (uuidText u).toList.length = 36 := by
  simp [toList_uuidText, length_hex]

/-- The groups of a UUID cover its bits. -/
theorem eq_of_groups {u v : ℕ} (hu : u < 2 ^ 128) (hv : v < 2 ^ 128)
    (h₁ : u / 16 ^ 24 % 16 ^ 8 = v / 16 ^ 24 % 16 ^ 8) (h₂ : u / 16 ^ 20 % 16 ^ 4 = v / 16 ^ 20 % 16 ^ 4)
    (h₃ : u / 16 ^ 16 % 16 ^ 4 = v / 16 ^ 16 % 16 ^ 4) (h₄ : u / 16 ^ 12 % 16 ^ 4 = v / 16 ^ 12 % 16 ^ 4)
    (h₅ : u % 16 ^ 12 = v % 16 ^ 12) : u = v := by
  omega

theorem uuidText_inj {u v : UUID} (hu : u < 2 ^ 128) (hv : v < 2 ^ 128)
    (h : uuidText u = uuidText v) : u = v := by
  have h := congrArg String.toList h
  rw [toList_uuidText, toList_uuidText] at h
  have hlen : ∀ width m n, (hex width m).length = (hex width n).length := by simp [length_hex]
  -- the groups of the text from the last to the first
  obtain ⟨h, h₅⟩ := List.append_inj' h (hlen 12 _ _)
  obtain ⟨h, -⟩ := List.append_inj' h rfl
  obtain ⟨h, h₄⟩ := List.append_inj' h (hlen 4 _ _)
  obtain ⟨h, -⟩ := List.append_inj' h rfl
  obtain ⟨h, h₃⟩ := List.append_inj' h (hlen 4 _ _)
  obtain ⟨h, -⟩ := List.append_inj' h rfl
  obtain ⟨h, h₂⟩ := List.append_inj' h (hlen 4 _ _)
  obtain ⟨h₁, -⟩ := List.append_inj' h rfl
  exact eq_of_groups hu hv (mod_eq_of_hex_eq h₁) (mod_eq_of_hex_eq h₂) (mod_eq_of_hex_eq h₃)
    (mod_eq_of_hex_eq h₄) (mod_eq_of_hex_eq h₅)

namespace RunContext

/-- What follows the id of the run. -/
def keySuffix : Option ℕ → String
  | none => ":context"
  | some i => ":row:" ++ toString i ++ ":context"

theorem contextKey_eq (run : UUID) (row : Option ℕ) :
    contextKey run row = "run:" ++ uuidText run ++ keySuffix row := by
  match row with
  | none => simp only [contextKey, keySuffix]
  | some i => simp only [contextKey, keySuffix, String.append_assoc]

theorem toString_inj {i j : ℕ} (h : (toString i).toList = (toString j).toList) : i = j := by
  have hi := Nat.ofDigitChars_ten_toDigits (n := i)
  have hj := Nat.ofDigitChars_ten_toDigits (n := j)
  rw [Nat.toString_eq_ofList_toDigits, Nat.toString_eq_ofList_toDigits, String.toList_ofList,
    String.toList_ofList] at h
  rw [← hi, h, hj]

theorem keySuffix_ne (i : ℕ) : keySuffix none ≠ keySuffix (some i) := by
  intro h
  have h := congrArg String.toList h
  simp only [keySuffix, String.toList_append, String.reduceToList] at h
  simp at h

theorem keySuffix_inj {row row' : Option ℕ} (h : keySuffix row = keySuffix row') : row = row' := by
  match row, row' with
  | none, none => rfl
  | none, some j => exact absurd h (keySuffix_ne j)
  | some i, none => exact absurd h.symm (keySuffix_ne i)
  | some i, some j =>
    have h := congrArg String.toList h
    simp only [keySuffix, String.toList_append] at h
    obtain ⟨h, -⟩ := List.append_inj' h rfl
    obtain ⟨-, h⟩ := List.append_inj h rfl
    rw [toString_inj h]

/-- One key for each run and data row, and another one for a run without rows. -/
theorem contextKey_inj {run run' : UUID} {row row' : Option ℕ} (hrun : run < 2 ^ 128)
    (hrun' : run' < 2 ^ 128) (h : contextKey run row = contextKey run' row') :
    run = run' ∧ row = row' := by
  have h := congrArg String.toList h
  rw [contextKey_eq, contextKey_eq] at h
  simp only [String.toList_append, List.append_assoc] at h
  have h := List.append_cancel_left h
  obtain ⟨htext, hsuffix⟩ := List.append_inj h (by rw [length_uuidText, length_uuidText])
  exact ⟨uuidText_inj hrun hrun' (String.toList_injective htext),
    keySuffix_inj (String.toList_injective hsuffix)⟩

end RunContext

end ApiTesting
