import Mathlib.Tactic.Common

/-! Comma-separated values, as a writer that quotes where it must and a reader that goes
through the text once and takes no field beyond a limit. A text the writer leaves is read
back as the rows it was written from, whatever their fields hold, unless one is too long. -/

namespace Csv

/-- What separates the fields of a row, what encloses a field that holds more than plain
characters, and what rows end with. -/
structure Dialect (α : Type*) where
  delimiter : α
  quoteChar : α
  carriageReturn : α
  lineFeed : α
  delimiter_ne_quote : delimiter ≠ quoteChar
  delimiter_ne_break : delimiter ≠ carriageReturn ∧ delimiter ≠ lineFeed
  quote_ne_break : quoteChar ≠ carriageReturn ∧ quoteChar ≠ lineFeed
  return_ne_feed : carriageReturn ≠ lineFeed

variable {α : Type*} [DecidableEq α]

abbrev Field (α : Type*) := List α

abbrev Row (α : Type*) := List (Field α)

variable (d : Dialect α) (limit : ℕ)

def isBreak (c : α) : Bool := c = d.carriageReturn || c = d.lineFeed

/-- The characters that mean something to the reader. -/
def special (c : α) : Bool := c = d.delimiter || c = d.quoteChar || isBreak d c

def doubled (c : α) : List α := if c = d.quoteChar then [c, c] else [c]

def quoted (f : Field α) : List α := d.quoteChar :: f.flatMap (doubled d) ++ [d.quoteChar]

def fieldText (f : Field α) : List α := if f.any (special d) then quoted d f else f

/-- The fields of a row; a lone empty one is quoted, the row would be empty otherwise. -/
def rowText (r : Row α) : List α :=
  if r = [[]] then quoted d [] else [d.delimiter].intercalate (r.map (fieldText d))

def write (rows : List (Row α)) : List α :=
  rows.flatMap fun r => rowText d r ++ [d.carriageReturn, d.lineFeed]

inductive State where
  | startRecord
  | startField
  | inField
  | inQuoted
  | quoteInQuoted
  | eatBreak
deriving DecidableEq

/-- Where the reader is: the field and the row it is in, and the rows it has read. -/
structure Reader (α : Type*) where
  state : State
  field : Field α
  fields : Row α
  rows : List (Row α)

namespace Reader

/-- One more character of a field, if there is room for it. -/
def add (r : Reader α) (c : α) (state : State) : Option (Reader α) :=
  if r.field.length < limit then some { r with state, field := r.field ++ [c] } else none

def save (r : Reader α) (state : State) : Reader α :=
  { r with state, field := [], fields := r.fields ++ [r.field] }

def goto (r : Reader α) (state : State) : Reader α := { r with state }

/-- A character where a field may start. -/
def start (r : Reader α) (c : α) : Option (Reader α) :=
  if isBreak d c then some (r.save .eatBreak)
  else if c = d.quoteChar then some (r.goto .inQuoted)
  else if c = d.delimiter then some (r.save .startField)
  else r.add limit c .inField

/-- One character; the reader fails on what follows a line break within a line. -/
def read (r : Reader α) (c : α) : Option (Reader α) :=
  match r.state with
  | .startRecord => if isBreak d c then some (r.goto .eatBreak) else r.start d limit c
  | .startField => r.start d limit c
  | .inField =>
    if isBreak d c then some (r.save .eatBreak)
    else if c = d.delimiter then some (r.save .startField)
    else r.add limit c .inField
  | .inQuoted => if c = d.quoteChar then some (r.goto .quoteInQuoted) else r.add limit c .inQuoted
  | .quoteInQuoted =>
    if c = d.quoteChar then r.add limit c .inQuoted
    else if c = d.delimiter then some (r.save .startField)
    else if isBreak d c then some (r.save .eatBreak)
    else r.add limit c .inField
  | .eatBreak => if isBreak d c then some r else none

/-- The end of a line, which is the end of the row unless a quoted field is open. -/
def endLine (r : Reader α) : Reader α :=
  let done (r : Reader α) : Reader α := { r with state := .startRecord, fields := [], rows := r.rows ++ [r.fields] }
  match r.state with
  | .inQuoted => r
  | .startRecord | .eatBreak => done r
  | .startField | .inField | .quoteInQuoted => done (r.save .startRecord)

/-- One character of a line, and the end of the line with a line feed. -/
def feed (r : Reader α) (c : α) : Option (Reader α) :=
  (r.read d limit c).map fun r => if c = d.lineFeed then r.endLine else r

/-- What is left when the text ends within a quoted field is a row as well. -/
def finish (r : Reader α) : List (Row α) :=
  match r.state with
  | .inQuoted => r.rows ++ [r.fields ++ [r.field]]
  | _ => r.rows

/-- Ready for a row, with the rows before it. -/
def ready (rows : List (Row α)) : Reader α := ⟨.startRecord, [], [], rows⟩

end Reader

/-- The rows of a text, if it can be read. A last line without a line feed ends with the text. -/
def read (text : List α) : Option (List (Row α)) :=
  (text.foldlM (Reader.feed d limit) (.ready [])).map fun r =>
    (if text.getLast?.all (· = d.lineFeed) then r else r.endLine).finish

/-- No field is beyond the limit. -/
def fits (fs : Row α) : Bool := fs.all fun f => f.length ≤ limit

variable {d limit} {c : α} {f : Field α} {fs : Row α} {rows : List (Row α)} {r : Reader α}

@[simp] theorem special_delimiter : special d d.delimiter := by simp [special]

@[simp] theorem special_quoteChar : special d d.quoteChar := by simp [special]

theorem special_false_iff :
    special d c = false ↔ c ≠ d.delimiter ∧ c ≠ d.quoteChar ∧ isBreak d c = false := by
  simp [special, and_assoc]

@[simp] theorem isBreak_quoteChar : isBreak d d.quoteChar = false := by
  simp [isBreak, d.quote_ne_break]

@[simp] theorem isBreak_delimiter : isBreak d d.delimiter = false := by
  simp [isBreak, d.delimiter_ne_break]

theorem ne_lineFeed (h : isBreak d c = false) : c ≠ d.lineFeed := by
  rintro rfl
  simp [isBreak] at h

omit [DecidableEq α] in
/-- A field that has no room for its next character is too long as a whole. -/
theorem too_long {g : Field α} (h : ¬ g.length < limit) : ¬ (g ++ c :: f).length ≤ limit := by
  simp only [List.length_append, List.length_cons]
  omega

namespace Reader

/-- Within a line a character is read as it is. -/
theorem feed_eq_read (hc : c ≠ d.lineFeed) : r.feed d limit c = r.read d limit c := by
  cases h : r.read d limit c <;> simp [feed, h, hc]

/-- In a quoted field the end of the line is a character like any other. -/
theorem feed_inQuoted (hs : r.state = .inQuoted) (hc : c ≠ d.quoteChar) :
    r.feed d limit c = r.add limit c .inQuoted := by
  have hread : r.read d limit c = r.add limit c .inQuoted := by simp [read, hs, hc]
  rw [feed, hread, add]
  split <;> simp [endLine]

end Reader

open Reader

/-- The doubled quotes and the rest of a field, from within its quotes. -/
theorem foldlM_doubled (f g : Field α) (fs : Row α) (rows : List (Row α)) (hg : g.length ≤ limit) :
    (f.flatMap (doubled d)).foldlM (feed d limit) ⟨.inQuoted, g, fs, rows⟩ =
      if (g ++ f).length ≤ limit then some ⟨.inQuoted, g ++ f, fs, rows⟩ else none := by
  induction f generalizing g with
  | nil => simp [pure, hg]
  | cons c f ih =>
    have hfirst : (doubled d c).foldlM (feed d limit) ⟨.inQuoted, g, fs, rows⟩ =
        if g.length < limit then some ⟨.inQuoted, g ++ [c], fs, rows⟩ else none := by
      by_cases hc : c = d.quoteChar
      · subst hc
        simp [doubled, feed_eq_read d.quote_ne_break.2, Reader.read, goto, add]
      · simp [doubled, hc, feed_inQuoted, add]
    rw [List.flatMap_cons, List.foldlM_append, hfirst]
    by_cases hroom : g.length < limit
    · rw [if_pos hroom, Option.bind_eq_bind, Option.bind_some, ih (g ++ [c]) (by simpa using Nat.succ_le_of_lt hroom)]
      simp
    · rw [if_neg hroom, if_neg (too_long hroom)]
      rfl

/-- Where a field may start: at the start of a row, or after a delimiter. -/
def Starting (r : Reader α) : Prop := (r.state = .startRecord ∨ r.state = .startField) ∧ r.field = []

/-- Where a field may end. -/
def Ending (r : Reader α) : Prop := r.state ≠ .inQuoted ∧ r.state ≠ .eatBreak

theorem read_of_starting (h : Starting r) (hc : isBreak d c = false) :
    r.read d limit c = r.start d limit c := by
  obtain hs | hs := h.1 <;> simp [Reader.read, hs, hc]

theorem foldlM_quoted (h : Starting r) (f : Field α) :
    (quoted d f).foldlM (feed d limit) r =
      if f.length ≤ limit then some ⟨.quoteInQuoted, f, r.fields, r.rows⟩ else none := by
  have hopen : r.feed d limit d.quoteChar = some ⟨.inQuoted, [], r.fields, r.rows⟩ := by
    rw [feed_eq_read d.quote_ne_break.2, read_of_starting h isBreak_quoteChar]
    simp [start, goto, h.2]
  rw [quoted, List.foldlM_append, List.foldlM_cons, hopen, Option.bind_eq_bind, Option.bind_some,
    foldlM_doubled f [] _ _ (Nat.zero_le _), List.nil_append]
  by_cases hf : f.length ≤ limit
  · simp [hf, feed_eq_read d.quote_ne_break.2, Reader.read, goto]
  · simp [hf]

/-- Plain characters are added to the field. -/
theorem foldlM_plain (f g : Field α) (fs : Row α) (rows : List (Row α)) (hg : g.length ≤ limit)
    (h : ∀ c ∈ f, special d c = false) :
    f.foldlM (feed d limit) ⟨.inField, g, fs, rows⟩ =
      if (g ++ f).length ≤ limit then some ⟨.inField, g ++ f, fs, rows⟩ else none := by
  induction f generalizing g with
  | nil => simp [pure, hg]
  | cons c f ih =>
    obtain ⟨hdelim, -, hbreak⟩ := special_false_iff.1 (h c (by simp))
    have hfirst : feed d limit ⟨.inField, g, fs, rows⟩ c =
        if g.length < limit then some ⟨.inField, g ++ [c], fs, rows⟩ else none := by
      rw [feed_eq_read (ne_lineFeed hbreak)]
      simp [Reader.read, hdelim, hbreak, add]
    rw [List.foldlM_cons, hfirst]
    by_cases hroom : g.length < limit
    · rw [if_pos hroom, Option.bind_eq_bind, Option.bind_some,
        ih (g ++ [c]) (by simpa using Nat.succ_le_of_lt hroom) fun c hc => h c (by simp [hc])]
      simp
    · rw [if_neg hroom, if_neg (too_long hroom)]
      rfl

variable (d limit) in
/-- The text of a field, from where it may start to where it may end. -/
theorem foldlM_fieldText (h : Starting r) (f : Field α) :
    ∃ state, (fieldText d f).foldlM (feed d limit) r =
        (if f.length ≤ limit then some ⟨state, f, r.fields, r.rows⟩ else none) ∧
      Ending ⟨state, f, r.fields, r.rows⟩ ∧ (state = .startRecord → f = [] ∧ r.state = .startRecord) := by
  by_cases hspecial : f.any (special d)
  · rw [fieldText, if_pos hspecial]
    exact ⟨.quoteInQuoted, foldlM_quoted h f, by simp [Ending], nofun⟩
  · rw [fieldText, if_neg hspecial]
    have hplain : ∀ c ∈ f, special d c = false := by simpa using hspecial
    cases f with
    | nil =>
      refine ⟨r.state, ?_, ?_, fun hs => ⟨rfl, hs⟩⟩
      · rw [List.foldlM_nil, if_pos (by simp), ← h.2]
        rfl
      · obtain hs | hs := h.1 <;> simp [Ending, hs]
    | cons c f =>
      obtain ⟨hdelim, hquote, hbreak⟩ := special_false_iff.1 (hplain c (by simp))
      have hfirst : r.feed d limit c =
          if 0 < limit then some ⟨.inField, [c], r.fields, r.rows⟩ else none := by
        rw [feed_eq_read (ne_lineFeed hbreak), read_of_starting h hbreak]
        simp [start, hdelim, hquote, hbreak, add, h.2]
      refine ⟨.inField, ?_, by simp [Ending], nofun⟩
      rw [List.foldlM_cons, hfirst]
      by_cases hroom : 0 < limit
      · rw [if_pos hroom, Option.bind_eq_bind, Option.bind_some,
          foldlM_plain f [c] r.fields r.rows hroom fun c hc => hplain c (by simp [hc])]
        rfl
      · have hlong : ¬ (c :: f).length ≤ limit := @too_long α limit c f [] hroom
        rw [if_neg hroom, if_neg hlong]
        rfl

theorem feed_delimiter (h : Ending r) : r.feed d limit d.delimiter = some (r.save .startField) := by
  rw [feed_eq_read d.delimiter_ne_break.2]
  cases hs : r.state <;> simp_all [Ending, Reader.read, start, d.delimiter_ne_quote]

variable (d limit) in
/-- The fields of a row: each is saved by the delimiter after it, but for the last. -/
theorem foldlM_fields (h : Starting r) (f : Field α) (fs : Row α) :
    ∃ state last saved, ([d.delimiter].intercalate ((f :: fs).map (fieldText d))).foldlM (feed d limit) r =
        (if fits limit (f :: fs) then some ⟨state, last, saved, r.rows⟩ else none) ∧
      saved ++ [last] = r.fields ++ f :: fs ∧ Ending ⟨state, last, saved, r.rows⟩ ∧
      (state = .startRecord → f :: fs = [[]] ∧ r.state = .startRecord) := by
  induction fs generalizing f r with
  | nil =>
    obtain ⟨state, hread, hend, hstart⟩ := foldlM_fieldText d limit h f
    refine ⟨state, f, r.fields, ?_, rfl, hend, fun hs => ?_⟩
    · simpa [fits] using hread
    · rw [(hstart hs).1]
      exact ⟨rfl, (hstart hs).2⟩
  | cons g fs ih =>
    obtain ⟨state, hread, hend, -⟩ := foldlM_fieldText d limit h f
    obtain ⟨state', last, saved, hrest, hsaved, hlast, hs⟩ :=
      ih (r := Reader.save ⟨state, f, r.fields, r.rows⟩ .startField) ⟨.inr rfl, rfl⟩ g
    refine ⟨state', last, saved, ?_, by simpa [save] using hsaved, hlast, fun h => nomatch (hs h).2⟩
    rw [List.map_cons, List.map_cons, List.intercalate_cons_cons, List.foldlM_append, List.foldlM_append, hread]
    have hfits : fits limit (f :: g :: fs) = (decide (f.length ≤ limit) && fits limit (g :: fs)) := rfl
    by_cases hf : f.length ≤ limit
    · simp only [if_pos hf, Option.bind_eq_bind, Option.bind_some, List.foldlM_cons, List.foldlM_nil,
        feed_delimiter hend]
      rw [hfits, decide_eq_true hf, Bool.true_and]
      exact hrest
    · rw [hfits, decide_eq_false hf, if_neg hf]
      rfl

variable (d limit) in
/-- A field that has been read ends the row. -/
theorem foldlM_break (h : Ending r) (hs : r.state ≠ .startRecord) :
    [d.carriageReturn, d.lineFeed].foldlM (feed d limit) r =
      some (ready (r.rows ++ [r.fields ++ [r.field]])) := by
  have hreturn : r.feed d limit d.carriageReturn = some (r.save .eatBreak) := by
    have hdelim : d.carriageReturn ≠ d.delimiter := d.delimiter_ne_break.1.symm
    have hquote : d.carriageReturn ≠ d.quoteChar := d.quote_ne_break.1.symm
    have hbreak : isBreak d d.carriageReturn = true := by simp [isBreak]
    rw [feed_eq_read d.return_ne_feed]
    cases hstate : r.state with
    | startRecord => exact absurd hstate hs
    | inQuoted => exact absurd hstate h.1
    | eatBreak => exact absurd hstate h.2
    | _ => simp [Reader.read, hstate, start, hbreak, hdelim, hquote]
  have hfeed : (r.save .eatBreak).feed d limit d.lineFeed = some (ready (r.rows ++ [r.fields ++ [r.field]])) := by
    simp [feed, Reader.read, save, isBreak, endLine, ready]
  simp only [List.foldlM_cons, List.foldlM_nil, hreturn, Option.bind_eq_bind, Option.bind_some, hfeed]
  rfl

theorem foldlM_rowText (rows : List (Row α)) (fs : Row α) :
    (rowText d fs ++ [d.carriageReturn, d.lineFeed]).foldlM (feed d limit) (ready rows) =
      if fits limit fs then some (ready (rows ++ [fs])) else none := by
  have hready : Starting (ready rows) := ⟨.inl rfl, rfl⟩
  rw [rowText, List.foldlM_append]
  by_cases hempty : fs = [[]]
  · rw [if_pos hempty, foldlM_quoted hready, hempty]
    exact foldlM_break d limit (by simp [Ending]) nofun
  rw [if_neg hempty]
  cases fs with
  | nil =>
    have hbreak : isBreak d d.carriageReturn = true := by simp [isBreak]
    have hfeed : isBreak d d.lineFeed = true := by simp [isBreak]
    simp [List.intercalate, feed, Reader.read, ready, goto, hbreak, hfeed, endLine, fits, d.return_ne_feed]
  | cons f fs =>
    obtain ⟨state, last, saved, hread, hsaved, hend, hs⟩ := foldlM_fields d limit hready f fs
    have hbreak := foldlM_break d limit hend fun h => hempty (hs h).1
    rw [hread]
    split
    · rw [hsaved] at hbreak
      exact hbreak
    · rfl

theorem foldlM_write (before rows : List (Row α)) :
    (write d rows).foldlM (feed d limit) (ready before) =
      if rows.all (fits limit) then some (ready (before ++ rows)) else none := by
  induction rows generalizing before with
  | nil => simp [write, pure]
  | cons fs rows ih =>
    rw [write, List.flatMap_cons, List.foldlM_append, foldlM_rowText]
    by_cases hfs : fits limit fs
    · simpa [write, hfs] using ih (before ++ [fs])
    · simp [hfs]

theorem getLast_write (rows : List (Row α)) : (write d rows).getLast?.all (· = d.lineFeed) := by
  rcases List.eq_nil_or_concat rows with rfl | ⟨before, fs, rfl⟩
  · rfl
  · simp [write, List.getLast?_append]

variable (d limit) in
/-- What the writer leaves is read back, unless there is a field beyond the limit. -/
theorem read_write (rows : List (Row α)) :
    read d limit (write d rows) = if rows.all (fits limit) then some rows else none := by
  simp only [read, foldlM_write, getLast_write, if_true]
  cases rows.all (fits limit) <;> rfl

omit [DecidableEq α] in
/-- Some limit is beyond every field. -/
theorem exists_fits (rows : List (Row α)) : ∃ limit, ∀ fs ∈ rows, ∀ f ∈ fs, f.length ≤ limit := by
  refine ⟨rows.flatten.flatten.length, fun fs hfs f hf => List.Sublist.length_le ?_⟩
  exact List.sublist_flatten_of_mem (List.mem_flatten.2 ⟨fs, hfs, hf⟩)

theorem write_injective : Function.Injective (write d) := by
  intro rows rows' h
  obtain ⟨limit, hlimit⟩ := exists_fits (rows ++ rows')
  have hall : ∀ rows'' : List (Row α), rows'' ⊆ rows ++ rows' → rows''.all (fits limit) = true := by
    intro rows'' hsub
    simpa [fits] using fun fs hfs f hf => hlimit fs (hsub hfs) f hf
  have hread := read_write d limit rows
  rw [h, read_write, if_pos (hall rows' (by simp)), if_pos (hall rows (by simp))] at hread
  exact (Option.some_inj.1 hread).symm

end Csv
