import ApiTesting.Proofs.Placeholders

/-! Substitution in a template that is written down as segments: every literal
stays, every placeholder becomes its value, and nothing in a value is looked at
again. A template with other braces in it may still leave a placeholder behind,
and it is said which ones do. -/

namespace ApiTesting

open Keyed Scan

/-- Text with no brace in it. -/
abbrev Literal := { text : String // ∀ c ∈ text.toList, isBrace c = false }

abbrev Blank := { text : String // IsBlank text.toList }

abbrev Name := { text : String // isName text.toList }

inductive Segment
  | literal (text : Literal)
  | placeholder (before : Blank) (name : Name) (after : Blank)

namespace Segment

/-- What is written down for a segment. -/
def source : Segment → String
  | .literal text => text.val
  | .placeholder before name after =>
    "\x7b\x7b" ++ before.val ++ name.val ++ after.val ++ "\x7d\x7d"

def tokens : Segment → List (Token Char (List Char))
  | .literal text => text.val.toList.map .element
  | .placeholder before name after =>
    [.piece name.val.toList (ApiTesting.placeholder before.val.toList name.val.toList after.val.toList)]

section
variable (chain env : Dict String String)

/-- What a segment stands for. -/
def value : Segment → String
  | .literal text => text.val
  | .placeholder _ name _ => valueText chain env name.val

def undefined : Segment → Option String
  | .literal _ => none
  | .placeholder _ name _ => undefinedName chain env name.val

end

end Segment

def render (segments : List Segment) : String := String.join (segments.map Segment.source)

section
variable (chain env : Dict String String)

/-- The leftmost name without a value. -/
def leftmostUndefined (segments : List Segment) : Option String :=
  segments.findSome? (Segment.undefined chain env)

/-- The literals and values put together. -/
def filled (segments : List Segment) : String := String.join (segments.map (Segment.value chain env))

end

theorem toList_source (before : Blank) (name : Name) (after : Blank) :
    (Segment.placeholder before name after).source.toList =
      placeholder before.val.toList name.val.toList after.val.toList := by
  simp [Segment.source, placeholder]

theorem scan_literal {cs : List Char} (h : ∀ c ∈ cs, isBrace c = false) (rest : List Char) :
    scan matchPlaceholder 0 (cs ++ rest) = cs.map .element ++ scan matchPlaceholder 0 rest := by
  induction cs with
  | nil => rfl
  | cons c cs ih =>
    have hc : c ≠ '{' := by
      rintro rfl
      exact absurd (h '{' List.mem_cons_self) (by decide)
    rw [List.cons_append, scan_of_none (matchPlaceholder_of_ne hc _),
      ih fun d hd => h d (List.mem_cons_of_mem c hd)]
    rfl

/-- In front of any text, a segment is scanned into its tokens. -/
theorem scan_source (segment : Segment) (rest : List Char) :
    scan matchPlaceholder 0 (segment.source.toList ++ rest) =
      segment.tokens ++ scan matchPlaceholder 0 rest := by
  cases segment with
  | literal text => exact scan_literal text.property rest
  | placeholder before name after =>
    rw [toList_source, scan_of_some matchPlaceholder_consuming
      (matchPlaceholder_placeholder before.property name.property after.property rest)]
    simp [Segment.tokens]

theorem tokens_render (segments : List Segment) : tokens (render segments) = segments.flatMap Segment.tokens := by
  rw [tokens, render, String.toList_join]
  induction segments with
  | nil => rfl
  | cons segment segments ih => rw [List.map_cons, List.flatMap_cons, scan_source, ih, List.flatMap_cons]

section
variable (chain env : Dict String String)

theorem fill_tokens (segment : Segment) :
    segment.tokens.flatMap (fillToken chain env) = (segment.value chain env).toList := by
  cases segment with
  | literal text =>
    simp only [Segment.tokens, Segment.value, List.flatMap_map]
    exact List.flatMap_singleton' _
  | placeholder before name after => simp [Segment.tokens, Segment.value, fillToken]

theorem undefined_tokens (segment : Segment) :
    segment.tokens.findSome? (undefinedToken chain env) = segment.undefined chain env := by
  cases segment with
  | literal text => simp [Segment.tokens, Segment.undefined, undefinedToken, List.findSome?_eq_none_iff]
  | placeholder before name after => simp [Segment.tokens, Segment.undefined, undefinedToken]

theorem resolveTemplate_render (segments : List Segment) :
    resolveTemplate chain env (render segments) =
      unlessUndefined (leftmostUndefined chain env segments) (filled chain env segments) := by
  have hundef : (segments.flatMap Segment.tokens).findSome? (undefinedToken chain env) =
      leftmostUndefined chain env segments := by
    rw [leftmostUndefined]
    induction segments with
    | nil => rfl
    | cons segment segments ih =>
      rw [List.flatMap_cons, List.findSome?_append, undefined_tokens, ih, List.findSome?_cons]
      rcases segment.undefined chain env with _ | name <;> rfl
  have hfill : String.ofList ((segments.flatMap Segment.tokens).flatMap (fillToken chain env)) =
      filled chain env segments := by
    rw [filled, ← String.toList_inj, String.toList_ofList, String.toList_join, List.flatMap_assoc,
      List.flatMap_map]
    simp only [fill_tokens]
  rw [resolveTemplate_eq, tokens_render, hundef, hfill]

/-- Values resolved one after the other, none of the keys being in what there is. -/
theorem foldlM_put {μ ν : Type} (f : ν → Except Exn μ) (undef : ν → Option String) (value : ν → μ)
    (hf : ∀ v, f v = unlessUndefined (undef v) (value v))
    (rows : List (String × ν)) (acc : Dict String μ) (hkeys : (acc.keys ++ rows.map Prod.fst).Nodup) :
    rows.foldlM (fun d p => do
        let v ← f p.2
        return d.put p.1 v) acc =
      unlessUndefined (rows.findSome? fun p => undef p.2)
        ⟨acc.rows ++ rows.map fun p => (p.1, value p.2), by
          simpa [Table.keys, Function.comp_def] using hkeys⟩ := by
  induction rows generalizing acc with
  | nil => simp [pure, Except.pure, unlessUndefined]
  | cons p rows ih =>
    have hp : p.1 ∉ acc.keys := by
      rw [List.map_cons, List.nodup_append] at hkeys
      exact fun h => hkeys.2.2 _ h _ List.mem_cons_self rfl
    have hrows : (acc.put p.1 (value p.2)).rows = acc.rows ++ [(p.1, value p.2)] := Dict.rows_put_of_notMem hp
    have hnd : ((acc.put p.1 (value p.2)).keys ++ rows.map Prod.fst).Nodup := by
      simpa [Table.keys, hrows] using hkeys
    rw [List.foldlM_cons, hf, List.findSome?_cons]
    rcases undef p.2 with _ | name
    · refine (ih _ hnd).trans (congrArg (unlessUndefined _) ?_)
      apply Table.ext
      simp [hrows]
    · rfl

theorem resolveMapping_render (mapping : Dict String (List Segment)) :
    resolveMapping chain env (mapping.mapValues render) =
      unlessUndefined (mapping.rows.findSome? fun p => leftmostUndefined chain env p.2)
        (mapping.mapValues (filled chain env)) := by
  have h := foldlM_put (fun segments => resolveTemplate chain env (render segments))
    (leftmostUndefined chain env) (filled chain env) (resolveTemplate_render chain env) mapping.rows .empty
    (by simpa [Table.keys, Table.empty] using mapping.nodup)
  rw [resolveMapping, Dict.mapValues, List.foldlM_map]
  exact h

/-- Substitution goes segment by segment, and a value is never expanded again. -/
theorem resolve_rendered :
    (∀ segments : List Segment, resolveTemplate chain env (render segments) =
      unlessUndefined (leftmostUndefined chain env segments) (filled chain env segments)) ∧
    ∀ mapping : Dict String (List Segment), resolveMapping chain env (mapping.mapValues render) =
      unlessUndefined (mapping.rows.findSome? fun p => leftmostUndefined chain env p.2)
        (mapping.mapValues (filled chain env)) :=
  ⟨resolveTemplate_render chain env, resolveMapping_render chain env⟩

end

/-! What a resolved template may still have in it. -/

/-- A placeholder stands somewhere in the text. -/
def HasPlaceholder (text : String) : Prop :=
  ∃ front before name after back, IsBlank before ∧ isName name ∧ IsBlank after ∧
    text.toList = front ++ (placeholder before name after ++ back)

def BraceFree (d : Dict String String) : Prop := ∀ p ∈ d.rows, ∀ c ∈ p.2.toList, isBrace c = false

/-- Two opening and two closing braces that the scan leaves as text stand around a
placeholder it replaces, with nothing but empty values between the two of either
side, and what is between the sides becomes a name with blanks around it. -/
def WrapsPlaceholder (chain env : Dict String String) (template : String) : Prop :=
  ∃ front opening inner closing back,
    tokens template = front ++ (.element '{' :: (opening ++ .element '{' ::
      (inner ++ .element '}' :: (closing ++ .element '}' :: back)))) ∧
    (∃ t ∈ opening ++ inner ++ closing, t.isPiece) ∧
    opening.flatMap (fillToken chain env) = [] ∧ closing.flatMap (fillToken chain env) = [] ∧
    ∃ before name after, IsBlank before ∧ isName name ∧ IsBlank after ∧
      inner.flatMap (fillToken chain env) = before ++ (name ++ after)

theorem placeholder_eq (before name after : List Char) :
    placeholder before name after = '{' :: '{' :: (before ++ (name ++ (after ++ ['}', '}']))) := rfl

theorem elements_of_no_piece {ts : List (Token Char (List Char))} (h : ¬ ∃ t ∈ ts, t.isPiece) :
    ts = (sources ts).map .element :=
  eq_map_element fun t ht => by simpa using fun hp => h ⟨t, ht, hp⟩

/-- The scan has found a piece in whatever reads as a placeholder. -/
theorem exists_piece {text : List Char} {front ts back : List (Token Char (List Char))}
    {before name after : List Char} (h : scan matchPlaceholder 0 text = front ++ (ts ++ back))
    (hb : IsBlank before) (hn : isName name) (ha : IsBlank after)
    (hts : sources ts = placeholder before name after) : ∃ t ∈ ts, t.isPiece := by
  by_contra hno
  have helements : ts = (placeholder before name after).map .element := hts ▸ elements_of_no_piece hno
  have hsources : sources (ts ++ back) = placeholder before name after ++ sources back := by
    rw [sources_append, hts]
  rw [helements, placeholder_eq, List.map_cons, List.cons_append] at h
  have hnone := matcher_of_element matchPlaceholder_consuming h
  have hsome := matchPlaceholder_placeholder hb hn ha (sources back)
  rw [helements, placeholder_eq, List.map_cons, List.cons_append, sources_cons, Token.source,
    List.singleton_append, List.cons_append, List.cons.injEq] at hsources
  rw [placeholder_eq, List.cons_append, ← hsources.2, hnone] at hsome
  cases hsome

/-- A text without a piece is scanned into its characters. -/
theorem tokens_of_no_piece {text : String} (h : ¬ ∃ t ∈ tokens text, t.isPiece) :
    tokens text = text.toList.map .element := by
  have helements := elements_of_no_piece h
  rwa [tokens, sources_scan matchPlaceholder_consuming] at helements

theorem hasPlaceholder_iff {text : String} : HasPlaceholder text ↔ ∃ t ∈ tokens text, t.isPiece := by
  constructor
  · rintro ⟨front, before, name, after, back, hb, hn, ha, htext⟩
    by_contra hno
    have hscan := tokens_of_no_piece hno
    rw [htext, List.map_append, List.map_append] at hscan
    have hsources : sources ((placeholder before name after).map Token.element : List (Token Char (List Char))) =
        placeholder before name after := flatMap_map_element (fun _ => rfl) _
    obtain ⟨t, ht, hp⟩ := exists_piece hscan hb hn ha hsources
    refine hno ⟨t, ?_, hp⟩
    rw [hscan]
    exact List.mem_append_right _ (List.mem_append_left _ ht)
  · rintro ⟨t, ht, hp⟩
    obtain ⟨front, back, hscan⟩ := List.append_of_mem ht
    cases t with
    | element c => cases hp
    | piece name source =>
      have hm := matcher_of_piece matchPlaceholder_consuming hscan
      obtain ⟨before, after, tail, hb, hn, ha, htext, hlen⟩ := exists_of_matchPlaceholder hm
      obtain ⟨hsource, hback⟩ := List.append_inj htext hlen
      refine ⟨sources front, before, name, after, sources back, hb, hn, ha, ?_⟩
      rw [← sources_scan matchPlaceholder_consuming text.toList, ← tokens, hscan, sources_append, sources_cons,
        Token.source, hsource]

section
variable {chain env : Dict String String}

theorem braceFree_lookup {d : Dict String String} (h : BraceFree d) {name v : String} (hv : d.lookup name = some v) :
    ∀ c ∈ v.toList, isBrace c = false := by
  obtain ⟨p, hp, rfl⟩ := Option.map_eq_some_iff.1 hv
  exact h p (Table.get?_eq_some_iff.1 hp).1

theorem braceFree_valueText (hchain : BraceFree chain) (henv : BraceFree env) (name : String) :
    ∀ c ∈ (valueText chain env name).toList, isBrace c = false := by
  unfold valueText valueOf
  rcases hc : chain.lookup name with _ | v
  · rcases he : env.lookup name with _ | v
    · simp
    · exact braceFree_lookup henv he
  · exact braceFree_lookup hchain hc

theorem eq_of_resolveTemplate {template text : String} (h : resolveTemplate chain env template = .ok text) :
    text.toList = (tokens template).flatMap (fillToken chain env) := by
  rw [resolveTemplate_eq, unlessUndefined_eq_ok_iff] at h
  rw [← h.2, String.toList_ofList]

/-- A brace of the text is a brace of the template. -/
theorem split_at_brace (hchain : BraceFree chain) (henv : BraceFree env) {c : Char} (hc : isBrace c)
    {ts : List (Token Char (List Char))} {front back : List Char}
    (h : ts.flatMap (fillToken chain env) = front ++ c :: back) :
    ∃ ts₁ ts₂, ts = ts₁ ++ .element c :: ts₂ ∧ ts₁.flatMap (fillToken chain env) = front ∧
      ts₂.flatMap (fillToken chain env) = back := by
  refine split_of_flatMap (fun _ => rfl) (fun name source _ hmem => ?_) h
  have hfree := braceFree_valueText hchain henv (String.ofList name) c hmem
  rw [hc] at hfree
  cases hfree

theorem hasPlaceholder_iff_wraps (hchain : BraceFree chain) (henv : BraceFree env) {template text : String}
    (h : resolveTemplate chain env template = .ok text) :
    HasPlaceholder text ↔ WrapsPlaceholder chain env template := by
  have htext := eq_of_resolveTemplate h
  constructor
  · rintro ⟨front, before, name, after, back, hb, hn, ha, hplace⟩
    -- each of the four braces is one the scan has left in the template
    have hopen : (tokens template).flatMap (fillToken chain env) =
        front ++ '{' :: '{' :: (before ++ (name ++ (after ++ '}' :: '}' :: back))) := by
      rw [← htext, hplace]
      simp [placeholder]
    obtain ⟨tsFront, ts₁, hts, -, h₁⟩ := split_at_brace hchain henv (by decide) hopen
    rw [← List.nil_append ('{' :: _)] at h₁
    obtain ⟨opening, ts₂, rfl, hopening, h₂⟩ := split_at_brace hchain henv (by decide) h₁
    have hclose : ts₂.flatMap (fillToken chain env) = (before ++ (name ++ after)) ++ '}' :: '}' :: back := by
      simpa using h₂
    obtain ⟨inner, ts₃, rfl, hinner, h₃⟩ := split_at_brace hchain henv (by decide) hclose
    rw [← List.nil_append ('}' :: _)] at h₃
    obtain ⟨closing, tsBack, rfl, hclosing, -⟩ := split_at_brace hchain henv (by decide) h₃
    refine ⟨tsFront, opening, inner, closing, tsBack, hts, ?_, hopening, hclosing, before, name, after,
      hb, hn, ha, hinner⟩
    by_contra hno
    have helement : ∀ ts : List (Token Char (List Char)), (∀ t ∈ ts, t ∈ opening ++ inner ++ closing) →
        sources ts = ts.flatMap (fillToken chain env) := by
      intro ts hsub
      have hmap : ts = (sources ts).map .element := by
        refine elements_of_no_piece ?_
        rintro ⟨t, ht, hp⟩
        exact hno ⟨t, hsub t ht, hp⟩
      conv_rhs => rw [hmap]
      exact (flatMap_map_element (fun _ => rfl) _).symm
    have hsources : sources (.element '{' :: (opening ++ .element '{' ::
        (inner ++ .element '}' :: (closing ++ [.element '}'])))) = placeholder before name after := by
      simp only [sources_cons, sources_append, Token.source, sources_nil]
      rw [helement opening (by simp +contextual), helement inner (by simp +contextual),
        helement closing (by simp +contextual), hopening, hinner, hclosing]
      simp [placeholder]
    have hscan : scan matchPlaceholder 0 template.toList = tsFront ++ ((.element '{' :: (opening ++ .element '{' ::
        (inner ++ .element '}' :: (closing ++ [.element '}'])))) ++ tsBack) := by
      rw [← tokens, hts]
      simp
    obtain ⟨t, ht, hp⟩ := exists_piece hscan hb hn ha hsources
    simp only [List.mem_cons, List.mem_append, List.not_mem_nil, or_false] at ht
    rcases ht with rfl | ht | rfl | ht | rfl | ht | rfl
    · cases hp
    · exact hno ⟨t, by simp [ht], hp⟩
    · cases hp
    · exact hno ⟨t, by simp [ht], hp⟩
    · cases hp
    · exact hno ⟨t, by simp [ht], hp⟩
    · cases hp
  · rintro ⟨front, opening, inner, closing, back, hts, -, hopening, hclosing, before, name, after, hb, hn, ha, hinner⟩
    refine ⟨front.flatMap (fillToken chain env), before, name, after, back.flatMap (fillToken chain env),
      hb, hn, ha, ?_⟩
    rw [htext, hts]
    simp [hopening, hclosing, hinner, fillToken, placeholder]

/-- Resolving a text again in any context changes nothing just when it has no placeholder. -/
theorem resolves_to_itself_iff {text : String} :
    (∀ chain env, resolveTemplate chain env text = .ok text) ↔ ¬ HasPlaceholder text := by
  rw [hasPlaceholder_iff]
  constructor
  · rintro h ⟨t, ht, hp⟩
    have hres := h .empty .empty
    rw [resolveTemplate_eq, unlessUndefined_eq_ok_iff] at hres
    have hnone := List.findSome?_eq_none_iff.1 hres.1 t ht
    cases t with
    | element c => cases hp
    | piece name source => cases hnone
  · intro hno chain env
    have helements := tokens_of_no_piece hno
    have hf : (tokens text).findSome? (undefinedToken chain env) = none := by
      simp [helements, undefinedToken, List.findSome?_eq_none_iff]
    rw [resolveTemplate_eq, unlessUndefined_eq_ok_iff, helements, flatMap_map_element (fun _ => rfl),
      ← helements]
    exact ⟨hf, String.ofList_toList⟩

end

/-- No placeholder survives unless the template wraps one it replaces in braces of its own. -/
theorem no_placeholder_iff {chain env : Dict String String} (hchain : BraceFree chain) (henv : BraceFree env)
    {template text : String} (h : resolveTemplate chain env template = .ok text) :
    (¬ HasPlaceholder text ↔ ¬ WrapsPlaceholder chain env template) ∧
      ((∀ chain' env', resolveTemplate chain' env' text = .ok text) ↔ ¬ WrapsPlaceholder chain env template) := by
  have hiff := not_congr (hasPlaceholder_iff_wraps hchain henv h)
  exact ⟨hiff, resolves_to_itself_iff.trans hiff⟩

/-- A context that defines one name. -/
def defining (name value : String) : Dict String String := ⟨[(name, value)], by simp⟩

theorem braceFree_defining {name value : String} (h : value.toList.all (!isBrace ·)) :
    BraceFree (defining name value) := by
  intro p hp c hc
  obtain rfl := List.mem_singleton.1 hp
  simpa using List.all_eq_true.1 h c hc

theorem braceFree_empty : BraceFree .empty := fun _ hp => by cases hp

theorem no_placeholder_plain :
    (¬ HasPlaceholder "b" ↔ ¬ WrapsPlaceholder (defining "a" "b") .empty "\x7b\x7ba\x7d\x7d") ∧
      ((∀ chain env, resolveTemplate chain env "b" = .ok "b") ↔
        ¬ WrapsPlaceholder (defining "a" "b") .empty "\x7b\x7ba\x7d\x7d") :=
  no_placeholder_iff (braceFree_defining (by decide)) braceFree_empty (by rfl)

/-- A name in braces of its own inside two more: its value is the next name. -/
theorem placeholder_survives_nested :
    BraceFree (defining "a" "b") ∧ BraceFree .empty ∧
      resolveTemplate (defining "a" "b") .empty "\x7b\x7b \x7b\x7ba\x7d\x7d \x7d\x7d" = .ok "\x7b\x7b b \x7d\x7d" ∧
      HasPlaceholder "\x7b\x7b b \x7d\x7d" ∧
      resolveTemplate .empty .empty "\x7b\x7b b \x7d\x7d" ≠ .ok "\x7b\x7b b \x7d\x7d" := by
  have hblank : IsBlank [' '] := fun c hc => by
    obtain rfl := List.mem_singleton.1 hc
    decide
  refine ⟨braceFree_defining (by decide), braceFree_empty, by rfl, ?_, ?_⟩
  · exact ⟨[], [' '], ['b'], [' '], [], hblank, by decide, hblank, by rfl⟩
  · have h : resolveTemplate .empty .empty "\x7b\x7b b \x7d\x7d" = .error (undefinedVariableError "b") := by rfl
    rw [h]
    intro hok
    cases hok

end ApiTesting
