import ApiTesting.Spec.TemplateResolver
import ApiTesting.Lib.Scan
import Mathlib.Data.List.TakeWhile

/-! The placeholders of a template. The pattern matches just the texts of its
grammar, so a template is the list of tokens the scan cuts it into, and resolving
it fills the placeholders one after the other. -/

namespace ApiTesting

open Keyed Scan

def IsBlank (cs : List Char) : Prop := ∀ c ∈ cs, isSpace c

/-- `[A-Za-z_][A-Za-z0-9_]*` -/
def isName : List Char → Bool
  | [] => false
  | c :: cs => isNameStart c && cs.all isNameChar

/-- The text of a placeholder, with the blanks around its name. -/
def placeholder (before name after : List Char) : List Char :=
  '{' :: '{' :: (before ++ (name ++ (after ++ ['}', '}'])))

def isBrace (c : Char) : Bool := c = '{' || c = '}'

theorem isNameChar_of_start {c : Char} (h : isNameStart c) : isNameChar c := by
  simp [isNameChar, h]

theorem isNameChar_of_isSpace {c : Char} (h : isSpace c) : isNameChar c = false := by
  simp only [isSpace, Bool.or_eq_true, Bool.and_eq_true, decide_eq_true_eq] at h
  simp only [isNameChar, isNameStart, Bool.or_eq_false_iff, Bool.and_eq_false_iff, decide_eq_false_iff_not]
  omega

theorem isSpace_of_isNameChar {c : Char} (h : isNameChar c) : isSpace c = false := by
  rcases hs : isSpace c with _ | _
  · rfl
  · rw [isNameChar_of_isSpace hs] at h
    cases h

theorem isNameChar_of_mem {name : List Char} (h : isName name) {c : Char} (hc : c ∈ name) : isNameChar c := by
  cases name with
  | nil => cases hc
  | cons d name =>
    simp only [isName, Bool.and_eq_true, List.all_eq_true] at h
    rcases List.mem_cons.1 hc with rfl | hc
    · exact isNameChar_of_start h.1
    · exact h.2 c hc

/-! What the matcher finds. -/

section
variable {p : Char → Bool} {cs : List Char} {c : Char} {rest : List Char}

theorem dropWhile_run (hcs : ∀ d ∈ cs, p d) (hc : p c = false) :
    (cs ++ c :: rest).dropWhile p = c :: rest := by
  rw [List.dropWhile_append_of_pos hcs, List.dropWhile_cons_of_neg (by simp [hc])]

theorem takeWhile_run (hcs : ∀ d ∈ cs, p d) (hc : p c = false) :
    (cs ++ c :: rest).takeWhile p = cs := by
  rw [List.takeWhile_append_of_pos hcs, List.takeWhile_cons_of_neg (by simp [hc]), List.append_nil]

end

section
variable {before name after : List Char}

theorem length_placeholder_pos : 0 < (placeholder before name after).length := by
  simp [placeholder]

theorem matchPlaceholder_placeholder (hb : IsBlank before) (hn : isName name) (ha : IsBlank after)
    (tail : List Char) :
    matchPlaceholder (placeholder before name after ++ tail) =
      some (name, (placeholder before name after).length) := by
  obtain ⟨c, cs, rfl⟩ : ∃ c cs, name = c :: cs := List.exists_cons_of_ne_nil fun h => by
    rw [h] at hn
    cases hn
  have hstart : isNameStart c := by
    simp only [isName, Bool.and_eq_true] at hn
    exact hn.1
  have hchars : ∀ d ∈ c :: cs, isNameChar d := fun d hd => isNameChar_of_mem hn hd
  have hblank : (before ++ (c :: (cs ++ (after ++ '}' :: '}' :: tail)))).dropWhile isSpace =
      c :: (cs ++ (after ++ '}' :: '}' :: tail)) :=
    dropWhile_run hb (isSpace_of_isNameChar (isNameChar_of_start hstart))
  -- the name ends where the blanks or the closing braces begin
  obtain ⟨d, rest, hrest, hd⟩ : ∃ d rest, after ++ '}' :: '}' :: tail = d :: rest ∧ isNameChar d = false := by
    cases after with
    | nil => exact ⟨'}', '}' :: tail, rfl, by decide⟩
    | cons d after => exact ⟨d, _, rfl, isNameChar_of_isSpace (ha d List.mem_cons_self)⟩
  have htake : (c :: (cs ++ (after ++ '}' :: '}' :: tail))).takeWhile isNameChar = c :: cs := by
    rw [hrest]
    exact takeWhile_run hchars hd
  have hdrop : (c :: (cs ++ (after ++ '}' :: '}' :: tail))).dropWhile isNameChar =
      after ++ '}' :: '}' :: tail := by
    rw [hrest]
    exact dropWhile_run hchars hd
  have hclose : (after ++ '}' :: '}' :: tail).dropWhile isSpace = '}' :: '}' :: tail :=
    dropWhile_run ha (by decide)
  simp only [placeholder, List.cons_append, List.append_assoc, List.nil_append, matchPlaceholder,
    hblank, hstart, if_true, htake, hdrop, hclose, Option.some.injEq, Prod.mk.injEq, true_and,
    List.length_cons, List.length_append, List.length_nil]
  omega

theorem exists_of_matchPlaceholder {text : List Char} {length : ℕ}
    (h : matchPlaceholder text = some (name, length)) :
    ∃ before after tail, IsBlank before ∧ isName name ∧ IsBlank after ∧
      text = placeholder before name after ++ tail ∧ length = (placeholder before name after).length := by
  unfold matchPlaceholder at h
  split at h
  · rename_i rest
    dsimp only at h
    split at h
    · rename_i c cs hcs
      split at h
      · rename_i hstart
        split at h
        · rename_i tail htail
          simp only [Option.some.injEq, Prod.mk.injEq] at h
          obtain ⟨rfl, rfl⟩ := h
          have htext : rest = rest.takeWhile isSpace ++ ((rest.dropWhile isSpace).takeWhile isNameChar ++
              (((rest.dropWhile isSpace).dropWhile isNameChar).takeWhile isSpace ++ '}' :: '}' :: tail)) := by
            rw [← htail, List.takeWhile_append_dropWhile, List.takeWhile_append_dropWhile,
              List.takeWhile_append_dropWhile]
          have hspace : ∀ l : List Char, IsBlank (l.takeWhile isSpace) := fun l c hc => List.mem_takeWhile_imp hc
          refine ⟨rest.takeWhile isSpace, ((rest.dropWhile isSpace).dropWhile isNameChar).takeWhile isSpace,
            tail, hspace _, ?_, hspace _, ?_, ?_⟩
          · rw [hcs, List.takeWhile_cons_of_pos (isNameChar_of_start hstart)]
            simp only [isName, hstart, Bool.true_and, List.all_eq_true]
            exact fun d hd => List.mem_takeWhile_imp hd
          · simp only [placeholder, List.cons_append, List.append_assoc, List.nil_append]
            rw [← htext]
          · have hlen := congrArg List.length htext
            simp only [List.length_append, List.length_cons] at hlen
            simp only [placeholder, List.length_cons, List.length_append, List.length_nil]
            omega
        · cases h
      · cases h
    · cases h
  · cases h

theorem matchPlaceholder_consuming : Consuming matchPlaceholder := by
  intro text name length h
  obtain ⟨before, after, tail, -, -, -, rfl, rfl⟩ := exists_of_matchPlaceholder h
  rw [List.length_append]
  exact ⟨length_placeholder_pos, Nat.le_add_right _ _⟩

/-- A placeholder begins where the matcher finds one. -/
theorem matchPlaceholder_of_ne {c : Char} (h : c ≠ '{') (cs : List Char) : matchPlaceholder (c :: cs) = none := by
  rcases hm : matchPlaceholder (c :: cs) with _ | ⟨name, length⟩
  · rfl
  · obtain ⟨before, after, tail, -, -, -, htext, -⟩ := exists_of_matchPlaceholder hm
    rw [placeholder, List.cons_append, List.cons.injEq] at htext
    exact absurd htext.1 h

end

/-! What a template resolves to. -/

section
variable (chain env : Dict String String)

/-- What a name stands for: the chain context comes first. -/
def valueOf (name : String) : Option String := (chain.lookup name).or (env.lookup name)

/-- The name of a placeholder no value is defined for. -/
def undefinedName (name : String) : Option String :=
  match valueOf chain env name with
  | some _ => none
  | none => some name

/-- The text a placeholder is replaced with. -/
def valueText (name : String) : String := (valueOf chain env name).getD ""

def fillToken : Token Char (List Char) → List Char
  | .element c => [c]
  | .piece name _ => (valueText chain env (String.ofList name)).toList

def undefinedToken : Token Char (List Char) → Option String
  | .element _ => none
  | .piece name _ => undefinedName chain env (String.ofList name)

/-- What a resolution gives where `undefined` is the first name without a value. -/
def unlessUndefined {α : Type} (undefined : Option String) (resolved : α) : Except Exn α :=
  match undefined with
  | none => .ok resolved
  | some name => .error (undefinedVariableError name)

theorem unlessUndefined_eq_ok_iff {α : Type} {undefined : Option String} {resolved a : α} :
    unlessUndefined undefined resolved = .ok a ↔ undefined = none ∧ resolved = a := by
  cases undefined with
  | none => simp [unlessUndefined]
  | some name => simp [unlessUndefined]

def tokens (template : String) : List (Token Char (List Char)) := scan matchPlaceholder 0 template.toList

theorem replaceName_eq (name : String) :
    replaceName chain env name = unlessUndefined (undefinedName chain env name) (valueText chain env name) := by
  unfold replaceName undefinedName valueText valueOf
  rcases chain.lookup name with _ | v
  · rcases env.lookup name with _ | v <;> rfl
  · rfl

theorem substitute_eq_drop (skip : ℕ) (text : List Char) :
    substitute chain env skip text = substitute chain env 0 (text.drop skip) := by
  induction text generalizing skip with
  | nil => cases skip <;> simp [substitute]
  | cons c text ih =>
    cases skip with
    | zero => rfl
    | succ skip => exact ih skip

theorem substitute_of_some {text name : List Char} {length : ℕ}
    (h : matchPlaceholder text = some (name, length)) :
    substitute chain env 0 text = do
      let value ← replaceName chain env (String.ofList name)
      let rest ← substitute chain env 0 (text.drop length)
      return value.toList ++ rest := by
  obtain ⟨hpos, hle⟩ := matchPlaceholder_consuming text name length h
  cases text with
  | nil => simp [matchPlaceholder] at h
  | cons c text =>
    obtain ⟨n, rfl⟩ : ∃ n, length = n + 1 := ⟨length - 1, by omega⟩
    rw [substitute, h]
    simp only [Nat.add_sub_cancel, List.drop_succ_cons, substitute_eq_drop chain env n]

/-- The tokens filled in order, or the first placeholder that cannot be. -/
theorem substitute_eq (text : List Char) :
    substitute chain env 0 text =
      unlessUndefined ((scan matchPlaceholder 0 text).findSome? (undefinedToken chain env))
        ((scan matchPlaceholder 0 text).flatMap (fillToken chain env)) := by
  induction text using scan_induction matchPlaceholder_consuming with
  | nil => rfl
  | element c text hm ih =>
    rw [substitute, hm]
    simp only [ih, scan_of_none hm, List.findSome?_cons, undefinedToken, List.flatMap_cons]
    rcases (scan matchPlaceholder 0 text).findSome? (undefinedToken chain env) with _ | name <;> rfl
  | piece text name length hm ih =>
    rw [substitute_of_some chain env hm, ih, replaceName_eq, scan_of_some matchPlaceholder_consuming hm]
    simp only [List.findSome?_cons, undefinedToken, List.flatMap_cons, fillToken]
    rcases undefinedName chain env (String.ofList name) with _ | name'
    · rcases (scan matchPlaceholder 0 (text.drop length)).findSome? (undefinedToken chain env) with _ | name'
      · rfl
      · rfl
    · rfl

theorem resolveTemplate_eq (template : String) :
    resolveTemplate chain env template =
      unlessUndefined ((tokens template).findSome? (undefinedToken chain env))
        (String.ofList ((tokens template).flatMap (fillToken chain env))) := by
  rw [resolveTemplate, substitute_eq, tokens]
  rcases (scan matchPlaceholder 0 template.toList).findSome? (undefinedToken chain env) with _ | name <;> rfl

end

end ApiTesting
