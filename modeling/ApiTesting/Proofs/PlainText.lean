import ApiTesting.Spec.Columns
import ApiTesting.Proofs.Outcomes
import ApiTesting.Proofs.Placeholders

/-! The texts the worker puts together: numbers, representations of values, and the
messages of its own exceptions. A representation escapes U+0000, so only text that
is quoted as it is can bring one in. -/

namespace ApiTesting

open Keyed Fallible Alphabet

theorem textStorable_append_iff {s t : PyStr} :
    textStorable (s ++ t) ↔ textStorable s ∧ textStorable t := madeOf_append_iff

/-- A character that is no surrogate, and not U+0000. -/
def plainChar (c : Char) : Bool := storableChar (.scalar c)

theorem textStorable_ofString_iff {s : String} : textStorable s ↔ madeOf plainChar s.toList := madeOf_map_iff

theorem textStorable_ofString_append_iff {s t : String} :
    textStorable (PyStr.ofString (s ++ t)) ↔ textStorable s ∧ textStorable t := by
  rw [PyStr.ofString_append, textStorable_append_iff]

theorem plainChar_of_isDigit {c : Char} (h : c.isDigit) : plainChar c := by
  rw [plainChar, storableChar, decide_eq_true_eq]
  rintro rfl
  cases h

theorem textStorable_int (i : ℤ) : textStorable (toString i : String) :=
  textStorable_ofString_iff.2 (madeOf_int (fun _ => plainChar_of_isDigit) rfl i)

theorem plainChar_hexDigit (n : ℕ) : plainChar (hexDigit n) := by
  have hdigits : ∀ c ∈ "0123456789abcdef".toList, plainChar c := List.all_eq_true.1 rfl
  rw [hexDigit, List.getD_eq_getElem?_getD]
  rcases hc : "0123456789abcdef".toList[n]? with _ | c
  · rfl
  · exact hdigits c (List.mem_of_getElem? hc)

theorem plainChar_of_mem_hex {width n : ℕ} {c : Char} (h : c ∈ hex width n) : plainChar c := by
  obtain ⟨i, -, rfl⟩ := List.mem_map.1 h
  exact plainChar_hexDigit _

theorem plainChar_of_mem_escape {e d : Char} {width n : ℕ} (he : plainChar e)
    (h : d ∈ ['\\', e] ++ hex width n) : plainChar d := by
  simp only [List.cons_append, List.nil_append, List.mem_cons] at h
  rcases h with rfl | rfl | h
  · rfl
  · exact he
  · exact plainChar_of_mem_hex h

section
variable {lib : Libraries}

theorem plainChar_of_mem_reprScalar {quote c d : Char} (hquote : plainChar quote)
    (h : d ∈ reprScalar lib quote c) : plainChar d := by
  have hpair : ∀ e : Char, plainChar e → d ∈ ['\\', e] → plainChar d := by
    intro e he hd
    simp only [List.mem_cons, List.not_mem_nil, or_false] at hd
    rcases hd with rfl | rfl
    · rfl
    · exact he
  have hplain : ¬ (c.toNat < 0x20 ∨ c.toNat = 0x7f) → plainChar c := by
    intro hc
    rw [plainChar, storableChar, decide_eq_true_eq]
    rintro rfl
    exact hc (.inl (by decide))
  unfold reprScalar at h
  split at h
  · rename_i hc
    rcases hc with rfl | rfl
    · exact hpair c hquote h
    · exact hpair '\\' rfl h
  · split at h
    · exact hpair 't' rfl h
    · split at h
      · exact hpair 'n' rfl h
      · split at h
        · exact hpair 'r' rfl h
        · split at h
          · exact plainChar_of_mem_escape rfl h
          · rename_i hc
            split at h
            · rw [List.mem_singleton.1 h]
              exact hplain hc
            · split at h
              · exact plainChar_of_mem_escape rfl h
              · split at h
                · exact plainChar_of_mem_escape rfl h
                · exact plainChar_of_mem_escape rfl h

theorem plainChar_of_mem_reprChar {quote d : Char} {c : PyChar} (hquote : plainChar quote)
    (h : d ∈ reprChar lib quote c) : plainChar d := by
  cases c with
  | scalar c => exact plainChar_of_mem_reprScalar hquote h
  | surrogate n => exact plainChar_of_mem_escape rfl h

/-- Whatever is represented, its representation can be stored. -/
theorem textStorable_reprStr (s : PyStr) : textStorable (reprStr lib s) := by
  unfold reprStr
  dsimp only
  have hquote : plainChar (if s.contains (.scalar '\'') && !s.contains (.scalar '"') then '"' else '\'') := by
    split <;> rfl
  rw [textStorable_ofString_iff, String.toList_ofList, madeOf_iff]
  intro c hc
  simp only [List.mem_append, List.mem_singleton, List.mem_flatMap] at hc
  rcases hc with (rfl | ⟨d, -, hd⟩) | rfl
  · exact hquote
  · exact plainChar_of_mem_reprChar hquote hd
  · exact hquote

theorem textStorable_intercalate {items : List String} (h : ∀ s ∈ items, textStorable (PyStr.ofString s)) :
    textStorable (String.intercalate ", " items) := by
  rw [textStorable_ofString_iff, String.toList_intercalate, madeOf_intercalate_iff rfl, List.forall_mem_map]
  exact fun s hs => textStorable_ofString_iff.1 (h s hs)

/-- The texts the libraries bring in themselves: how a float is written, what is wrong
with a path, and what is wrong with a token. -/
structure PlainMessages (lib : Libraries) : Prop where
  floatRepr : ∀ x, textStorable (lib.floatRepr x)
  jsonPath : ∀ path document e, textStorable path → lib.jsonPathFind path document = .error e →
    textStorable e.val.message
  pyJwt : ∀ token e, lib.jwtDecode token = .error e → e.val.cls = .pyJwt → textStorable e.val.message

namespace Json

/-- The representation can be stored, unless a number in it is too long to be written. -/
abbrev Represented (x : Except LibraryExn String) : Prop :=
  Ends (· = tooManyDigits) (fun s : String => textStorable s) x

theorem represented_int (i : ℤ) : Represented (reprInt i) := by
  unfold reprInt
  split
  · exact textStorable_int i
  · exact rfl

/-- The items of a list or of an object between brackets that can be stored. -/
theorem represented_items {items : Except LibraryExn (List String)} {opening closing : String}
    (hopening : textStorable opening) (hclosing : textStorable closing)
    (h : Ends (· = tooManyDigits) (fun items => ∀ s ∈ items, textStorable (PyStr.ofString s)) items) :
    Represented (items >>= fun items => pure (opening ++ String.intercalate ", " items ++ closing)) := by
  refine h.bind fun items hitems => ?_
  refine textStorable_ofString_append_iff.2 ⟨textStorable_ofString_append_iff.2 ⟨hopening, ?_⟩, hclosing⟩
  exact textStorable_intercalate hitems

mutual

theorem represented_repr (hlib : PlainMessages lib) : ∀ j : Json, Represented (repr lib j)
  | .null => by
    rw [repr]
    exact rfl
  | .bool b => by
    rw [repr]
    cases b <;> exact rfl
  | .int i => by
    rw [repr]
    exact represented_int i
  | .float x => by
    rw [repr]
    exact hlib.floatRepr x
  | .str s => by
    rw [repr]
    exact textStorable_reprStr s
  | .arr xs => by
    rw [repr]
    exact represented_items rfl rfl (ends_reprList hlib xs)
  | .obj ps => by
    rw [repr]
    exact represented_items rfl rfl (ends_reprFields hlib ps)

theorem ends_reprList (hlib : PlainMessages lib) :
    ∀ xs : List Json, Ends (· = tooManyDigits) (fun items => ∀ s ∈ items, textStorable (PyStr.ofString s)) (reprList lib xs)
  | [] => by simp [reprList]
  | x :: xs => by
    rw [reprList]
    refine Ends.bind (represented_repr hlib x) fun item hitem => ?_
    refine Ends.bind (ends_reprList hlib xs) fun items hitems => ?_
    exact List.forall_mem_cons.2 ⟨hitem, hitems⟩

theorem ends_reprFields (hlib : PlainMessages lib) : ∀ ps : List (PyStr × Json),
    Ends (· = tooManyDigits) (fun items => ∀ s ∈ items, textStorable (PyStr.ofString s)) (reprFields lib ps)
  | [] => by simp [reprFields]
  | (k, v) :: ps => by
    rw [reprFields]
    refine Ends.bind (represented_repr hlib v) fun value hvalue => ?_
    refine Ends.bind (ends_reprFields hlib ps) fun items hitems => ?_
    refine List.forall_mem_cons.2 ⟨?_, hitems⟩
    rw [textStorable_ofString_append_iff, textStorable_ofString_append_iff]
    exact ⟨⟨textStorable_reprStr k, rfl⟩, hvalue⟩

end

end Json

/-! What resolving a template raises. -/

section
variable (hlib : PlainMessages lib) {a : Assertion} (ha : a.storable)

include hlib ha

end

/-! The messages of the extractor. -/

end

end ApiTesting
