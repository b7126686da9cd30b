import Mathlib.Data.List.Basic
import TemplateStyles.Template.Basic
/-!
# Template literals read back

The text of a template is read by the rules of template literals: a backslash takes the character
behind it as it is, and a part ends at a bare backquote or at a bare dollar sign before an opening
brace. `readPart?_escape`: an escaped part is read up to its end, whatever it ends in itself and
whichever of the two stands behind it. Main result `readLiteral?_literal`: the whole text gives
back every part, so no part ends the literal or starts an interpolation. Escaping is also three
replacements one after another (`escapeChars_eq_replaceAll`), backslashes first.
-/
namespace TemplateStyles.Template

/-! ## Escaping by replacement -/

/-- A text with each occurrence of a word replaced, from the front on. The word is not empty. -/
def replaceAll (word new : List Char) : List Char → List Char
  | [] => []
  | c :: r =>
    if word <+: c :: r then new ++ replaceAll word new (r.drop (word.length - 1))
    else c :: replaceAll word new r
termination_by s => s.length
decreasing_by
  · simp only [List.length_drop, List.length_cons]
    omega
  · simp

/-- A part with its backslashes and then its backquotes escaped. -/
def escapeMarks (s : List Char) : List Char :=
  replaceAll ['\x60'] ['\\', '\x60'] (replaceAll ['\\'] ['\\', '\\'] s)

@[simp]
theorem replaceAll_nil (word new : List Char) : replaceAll word new [] = [] := by
  rw [replaceAll]

theorem replaceAll_singleton_cons (d c : Char) (new r : List Char) :
    replaceAll [d] new (c :: r) = (if c = d then new else [c]) ++ replaceAll [d] new r := by
  rw [replaceAll]
  by_cases h : c = d
  · subst h
    simp
  · simp [h, Ne.symm h]

@[simp]
theorem escapeMarks_nil : escapeMarks [] = [] := by simp [escapeMarks]

/-- The backslashes put before backquotes come later than the doubling of backslashes. -/
theorem escapeMarks_cons (c : Char) (r : List Char) :
    escapeMarks (c :: r) =
      (if c = '\\' ∨ c = '\x60' then ['\\', c] else [c]) ++ escapeMarks r := by
  by_cases hb : c = '\\'
  · subst hb
    simp [escapeMarks, replaceAll_singleton_cons]
  · by_cases hq : c = '\x60'
    · subst hq
      simp [escapeMarks, replaceAll_singleton_cons]
    · simp [escapeMarks, replaceAll_singleton_cons, hb, hq]

/-- No brace comes to stand first. -/
theorem eq_brace_of_escapeMarks {s t : List Char} (h : escapeMarks s = '\x7b' :: t) :
    ∃ r, s = '\x7b' :: r := by
  cases s with
  | nil => simp at h
  | cons c r =>
    rw [escapeMarks_cons] at h
    split at h
    · simp at h
    · exact ⟨r, by rw [(List.cons.inj h).1]⟩

theorem replaceAll_cons_of_not_starts {word new r : List Char} {c : Char}
    (h : ¬ word <+: c :: r) : replaceAll word new (c :: r) = c :: replaceAll word new r := by
  rw [replaceAll, if_neg h]

/-- **Escaping is three replacements one after another**: backslashes, backquotes, openings of
interpolations. None of them touches what an earlier one has put in. -/
theorem escapeChars_eq_replaceAll (s : List Char) :
    escapeChars s = replaceAll ['$', '\x7b'] ['\\', '$', '\x7b'] (escapeMarks s) := by
  fun_induction escapeChars s with
  | case1 => simp
  | case2 r ih =>
    have hmarks : escapeMarks ('$' :: '\x7b' :: r) = '$' :: '\x7b' :: escapeMarks r := by
      simp [escapeMarks_cons]
    rw [hmarks, replaceAll, if_pos ⟨escapeMarks r, rfl⟩, ih]
    rfl
  | case3 c r hno ih =>
    rw [escapeMarks_cons, ih]
    by_cases hmark : c = '\\' ∨ c = '\x60'
    · have hdollar : '$' ≠ c := by rintro rfl; simp at hmark
      simp only [if_pos hmark, List.cons_append, List.nil_append]
      rw [replaceAll_cons_of_not_starts (by simp),
        replaceAll_cons_of_not_starts fun hp => hdollar (List.cons_prefix_cons.1 hp).1]
    · -- a dollar sign is left alone here, since no brace follows it
      simp only [if_neg hmark, List.singleton_append]
      rw [replaceAll_cons_of_not_starts]
      rintro ⟨t, ht⟩
      obtain ⟨hc, htail⟩ := List.cons.inj ht
      obtain ⟨r', hr'⟩ := eq_brace_of_escapeMarks htail.symm
      exact hno r' hc.symm hr'

/-! ## Reading one part -/

/-- A literal part decoded, with the text from its end on: a backquote, or a dollar sign before an
opening brace. A backslash takes the character behind it as it is. -/
def readPart? : List Char → Option (List Char × List Char)
  | [] => none
  | '\x60' :: r => some ([], '\x60' :: r)
  | '$' :: '\x7b' :: r => some ([], '$' :: '\x7b' :: r)
  | '\\' :: c :: r => (readPart? r).map fun p => (c :: p.1, p.2)
  | c :: r => (readPart? r).map fun p => (c :: p.1, p.2)

/-- What a literal part ends at. -/
def IsBoundary (s : List Char) : Prop := ['\x60'] <+: s ∨ ['$', '\x7b'] <+: s
deriving Decidable

theorem readPart?_of_isBoundary {s : List Char} (h : IsBoundary s) :
    readPart? s = some ([], s) := by
  obtain ⟨r, rfl⟩ | ⟨r, rfl⟩ := h <;> simp [readPart?]

theorem readPart?_backslash (c : Char) (r : List Char) :
    readPart? ('\\' :: c :: r) = (readPart? r).map fun p => (c :: p.1, p.2) := by
  simp [readPart?]

theorem readPart?_cons {c : Char} {r : List Char} (hb : c ≠ '\\') (h : ¬ IsBoundary (c :: r)) :
    readPart? (c :: r) = (readPart? r).map fun p => (c :: p.1, p.2) := by
  rw [readPart?]
  · rintro rfl
    exact h (.inl ⟨r, rfl⟩)
  · rintro r' rfl rfl
    exact h (.inr ⟨r', rfl⟩)
  · rintro c' r' rfl
    exact absurd rfl hb

/-- Escaping puts no brace behind a dollar sign. -/
theorem eq_brace_of_escapeChars {s behind t : List Char} (hbehind : IsBoundary behind)
    (h : escapeChars s ++ behind = '\x7b' :: t) : ∃ r, s = '\x7b' :: r := by
  revert h
  fun_cases escapeChars s with
  | case1 =>
    obtain ⟨r, rfl⟩ | ⟨r, rfl⟩ := hbehind <;> simp
  | case2 r => simp
  | case3 c r hno =>
    intro h
    split at h
    · simp at h
    · exact ⟨r, by rw [(List.cons.inj h).1]⟩

/-- An escaped part is read up to its end. -/
theorem readPart?_escapeChars {behind : List Char} (h : IsBoundary behind) (s : List Char) :
    readPart? (escapeChars s ++ behind) = some (s, behind) := by
  fun_induction escapeChars s with
  | case1 => exact readPart?_of_isBoundary h
  | case2 r ih =>
    have hbrace : readPart? ('\x7b' :: (escapeChars r ++ behind)) = some ('\x7b' :: r, behind) := by
      rw [readPart?_cons (by decide) (by simp [IsBoundary]), ih]
      rfl
    rw [List.cons_append, List.cons_append, List.cons_append, readPart?_backslash, hbrace]
    rfl
  | case3 c r hno ih =>
    by_cases hmark : c = '\\' ∨ c = '\x60'
    · rw [if_pos hmark, List.append_assoc, List.cons_append, List.cons_append,
        List.nil_append, readPart?_backslash, ih]
      rfl
    · obtain ⟨hb, hq⟩ := not_or.1 hmark
      have hplain : ¬ IsBoundary (c :: (escapeChars r ++ behind)) := by
        rintro (⟨t, ht⟩ | ⟨t, ht⟩)
        · exact hq (List.cons.inj ht).1.symm
        · obtain ⟨hc, htail⟩ := List.cons.inj ht
          obtain ⟨r', hr'⟩ := eq_brace_of_escapeChars h htail.symm
          exact hno r' hc.symm hr'
      rw [if_neg hmark, List.append_assoc, List.singleton_append, readPart?_cons hb hplain, ih]
      rfl

/-- **An escaped part is read back**, whatever it ends in itself. -/
theorem readPart?_escape {behind : List Char} (h : IsBoundary behind) (part : String) :
    readPart? ((escape part).toList ++ behind) = some (part.toList, behind) := by
  rw [escape, String.toList_ofList, readPart?_escapeChars h]

/-! ## Reading a literal -/

/-- An interpolation as it is written. -/
def interpolation (source : String) : String := "$\x7b" ++ source ++ "\x7d"

/-- How a tag is written, under the given names. -/
def tagText (tag : Tag) (styledName cssName : String) : String :=
  match tag with
  | .styled component => styledName ++ "(" ++ component ++ ")"
  | .css => cssName

/-- The parts of a literal with expressions of the given sources, from behind its opening
backquote on, and what stands behind its closing one. -/
def readParts? : List String → List Char → Option (List String × List Char)
  | [], s => do
    let (part, behind) ← readPart? s
    let behind ← behind.dropPrefix? ['\x60']
    return ([String.ofList part], behind)
  | source :: sources, s => do
    let (part, behind) ← readPart? s
    let behind ← behind.dropPrefix? (interpolation source).toList
    let (parts, behind) ← readParts? sources behind
    return (String.ofList part :: parts, behind)

/-- The parts of a whole literal behind the given tag. -/
def readLiteral? (tag : String) (sources : List String) (s : List Char) :
    Option (List String × List Char) := do
  let opened ← s.dropPrefix? (tag ++ "\x60").toList
  readParts? sources opened

theorem body_cons_cons (part second : String) (rest : List String) (e : Expression)
    (es : List Expression) : body (part :: second :: rest) (e :: es) =
      escape part ++ interpolation e.source ++ body (second :: rest) es := by
  simp [body, interpolation, String.append_assoc]

/-- The parts and the interpolations stand in turn. -/
theorem body_cons_eq_join {es : List Expression} {rest : List String} (first : String)
    (h : rest.length = es.length) :
    body (first :: rest) es = escape first ++ String.join
      (List.zipWith (fun e part => interpolation e.source ++ escape part) es rest) := by
  induction es generalizing first rest with
  | nil =>
    obtain rfl := List.length_eq_zero_iff.1 h
    simp [body]
  | cons e es ih =>
    obtain ⟨second, rest, rfl⟩ := List.exists_cons_of_length_eq_add_one h
    have hrest : rest.length = es.length := by simpa using h
    rw [body_cons_cons, ih second hrest, List.zipWith_cons_cons, String.join_cons]
    simp only [String.append_assoc]

theorem isBoundary_backquote (s : List Char) : IsBoundary ('\x60' :: s) := .inl ⟨s, rfl⟩

theorem isBoundary_interpolation (source : String) (s : List Char) :
    IsBoundary ((interpolation source).toList ++ s) :=
  .inr ⟨source.toList ++ '\x7d' :: s, by simp [interpolation]⟩

theorem readParts?_body {es : List Expression} {parts : List String}
    (h : parts.length = es.length + 1) (behind : List Char) :
    readParts? (es.map (·.source)) ((body parts es).toList ++ '\x60' :: behind) =
      some (parts, behind) := by
  induction es generalizing parts with
  | nil =>
    obtain ⟨part, rfl⟩ := List.length_eq_one_iff.1 h
    rw [body, List.map_nil, readParts?, readPart?_escape (isBoundary_backquote behind)]
    simp [List.dropPrefix?]
  | cons e es ih =>
    obtain ⟨part, rest, rfl⟩ := List.exists_cons_of_length_eq_add_one h
    have hrest : rest.length = es.length + 1 := by simpa using h
    obtain ⟨second, rest', rfl⟩ := List.exists_cons_of_length_eq_add_one hrest
    have hbody : (body (part :: second :: rest') (e :: es)).toList ++ '\x60' :: behind =
        (escape part).toList ++ ((interpolation e.source).toList ++
          ((body (second :: rest') es).toList ++ '\x60' :: behind)) := by
      simp [body_cons_cons]
    rw [hbody, List.map_cons, readParts?, readPart?_escape (isBoundary_interpolation _ _)]
    simp [List.dropPrefix?_append_of_beq, ih hrest]

theorem literal_eq (t : Template) (styledName cssName : String) :
    t.literal styledName cssName = tagText t.tag styledName cssName ++ "\x60" ++
      body t.parts t.expressions ++ "\x60" := by
  cases htag : t.tag <;> simp [literal, tagText, htag]

/-- **The text of a literal gives back every part.** -/
theorem readLiteral?_literal {t : Template} (h : t.parts.length = t.expressions.length + 1)
    (styledName cssName : String) (behind : List Char) :
    readLiteral? (tagText t.tag styledName cssName) (t.expressions.map (·.source))
      ((t.literal styledName cssName).toList ++ behind) = some (t.parts, behind) := by
  have htext : (t.literal styledName cssName).toList ++ behind =
      (tagText t.tag styledName cssName ++ "\x60").toList ++
        ((body t.parts t.expressions).toList ++ '\x60' :: behind) := by
    simp [literal_eq]
  rw [htext, readLiteral?, List.dropPrefix?_append_of_beq _ (beq_self_eq_true _)]
  exact readParts?_body h behind

/-- **The literal parts of a template survive its text.** Escaping replaces backslashes, then
backquotes, then openings of interpolations, and an escaped part before a backquote or an
interpolation is read up to its own end. So the text of a complete template, the parts and the
interpolations in turn between two backquotes, gives back each part. -/
theorem literal_parts_recoverable :
    (∀ part : String,
      (escape part).toList = replaceAll ['$', '\x7b'] ['\\', '$', '\x7b']
        (replaceAll ['\x60'] ['\\', '\x60'] (replaceAll ['\\'] ['\\', '\\'] part.toList))) ∧
    (∀ (part : String) (behind : List Char), IsBoundary behind →
      readPart? ((escape part).toList ++ behind) = some (part.toList, behind)) ∧
    ∀ (t : Template) (styledName cssName : String),
      t.parts.length = t.expressions.length + 1 →
      (∃ first rest, t.parts = first :: rest ∧
        t.literal styledName cssName = tagText t.tag styledName cssName ++ "\x60" ++
          (escape first ++ String.join (List.zipWith
            (fun e part => interpolation e.source ++ escape part) t.expressions rest)) ++
          "\x60") ∧
      ∀ behind : List Char,
        readLiteral? (tagText t.tag styledName cssName) (t.expressions.map (·.source))
          ((t.literal styledName cssName).toList ++ behind) = some (t.parts, behind) := by
  refine ⟨fun part => ?_, fun part behind h => readPart?_escape h part,
    fun t styledName cssName h => ⟨?_, readLiteral?_literal h styledName cssName⟩⟩
  · rw [escape, String.toList_ofList, escapeChars_eq_replaceAll, escapeMarks]
  · obtain ⟨first, rest, hparts⟩ := List.exists_cons_of_length_eq_add_one h
    have hrest : rest.length = t.expressions.length := by simpa [hparts] using h
    refine ⟨first, rest, hparts, ?_⟩
    rw [← body_cons_eq_join first hrest, ← hparts, literal_eq]

/-- Its parts end in a dollar sign behind a backslash, in a dollar sign and in a backslash, and the
second one begins like an interpolation. -/
def halfOpened : Template :=
  ⟨none, .styled "View", ["a\\$", "$\x7b\x60$", "\\"], [⟨"p.size", false⟩, ⟨"\x60x\x60", false⟩]⟩

theorem literal_parts_recoverable_halfOpened :
    halfOpened.literal "styled" "css" =
        "styled(View)\x60a\\\\$$\x7bp.size\x7d\\$\x7b\\\x60$$\x7b\x60x\x60\x7d\\\\\x60" ∧
      readLiteral? "styled(View)" ["p.size", "\x60x\x60"]
        ((halfOpened.literal "styled" "css").toList ++ [';']) = some (halfOpened.parts, [';']) ∧
      readPart? ((escape "a\\$").toList ++ "$\x7bp.size\x7d".toList) =
        some ("a\\$".toList, "$\x7bp.size\x7d".toList) :=
  ⟨by decide,
    (literal_parts_recoverable.2.2 halfOpened "styled" "css" rfl).2 [';'],
    literal_parts_recoverable.2.1 "a\\$" "$\x7bp.size\x7d".toList (by decide)⟩

end TemplateStyles.Template
