import TemplateStyles.Block.Printer
import TemplateStyles.Proofs.Block.Declarations
import TemplateStyles.Proofs.Number.Printing
import TemplateStyles.Proofs.Text.Words
/-!
# Written values are read back

A value without marker is read back from the text that is written for it (`ofText_css`), whichever
quotes are put around it. This text ends no declaration (`semicolon_not_mem_css`), is not blank
(`trimChars_css_ne_nil`) and has no marker (`occursIn_css`). Written again, a value that was one
shorthand stays one: quotes belong to its first and last word (`words_css`).
-/
namespace TemplateStyles.StyleValue

/-- The same text or the same number. -/
inductive Same : StyleValue → StyleValue → Prop where
  | number {x y : Binary64} (h : x.sameNumber y = true) : Same (.number x) (.number y)
  | text (s : String) : Same (.text s) (.text s)

@[simp] theorem ofTrimmed_nil : ofTrimmed [] = .text "" := by decide

/-! ## Quotes -/

/-- The two characters that quote a text. -/
def IsQuote (q : Char) : Prop := q = '"' ∨ q = '\''

theorem IsQuote.isBlank {q : Char} (h : IsQuote q) : Text.isBlank q = false := by
  rcases h with rfl | rfl <;> decide

theorem unquote?_enclosed {q : Char} (h : IsQuote q) (s : List Char) :
    unquote? (Text.enclosed q s) = some s := by
  obtain ⟨c, r, hcr⟩ := List.exists_cons_of_ne_nil (l := s ++ [q]) (by simp)
  have hlast : (c :: r).getLast? = some q := by rw [← hcr]; simp
  have hdrop : (c :: r).dropLast = s := by rw [← hcr]; simp
  rw [Text.enclosed, hcr, unquote?, if_pos ⟨h, hlast⟩, hdrop]

/-- What is between quotes stands for itself. -/
theorem exists_of_unquote? {s inner : List Char} (h : unquote? s = some inner) :
    ∃ q, IsQuote q ∧ s = Text.enclosed q inner := by
  unfold unquote? at h
  split at h
  · split at h
    · rename_i q c r hq
      refine ⟨q, hq.1, ?_⟩
      have hend : (c :: r) = (c :: r).dropLast ++ [q] :=
        (List.dropLast_append_getLast? q hq.2).symm
      rw [Text.enclosed, ← Option.some.inj h, ← hend]
    · simp at h
  · simp at h

theorem readNumber?_enclosed {q : Char} (h : IsQuote q) (s : List Char) :
    readNumber? (Text.enclosed q s) = none := by
  refine Option.eq_none_iff_forall_ne_some.2 fun x hx => ?_
  have hnumber := isNumberChar_of_readNumber? hx q (List.mem_cons_self ..)
  rcases h with rfl | rfl <;> exact absurd hnumber (by decide)

/-- No quote belongs to a marker. -/
theorem occurrences_enclosed {q : Char} (hq : IsQuote q) (s : List Char) :
    Marker.occurrences (Text.enclosed q s) = Marker.occurrences s := by
  have hmem : '_' ∉ [q] := by rcases hq with rfl | rfl <;> decide
  rw [Text.enclosed, ← List.singleton_append, Marker.occurrences_append_of_not_mem hmem,
    Marker.occurrences_append s hmem]

theorem first?_enclosed {q : Char} (h : IsQuote q) (s : List Char) :
    Marker.first? (Text.enclosed q s) = Marker.first? s := by
  rw [← Marker.head?_occurrences, occurrences_enclosed h, Marker.head?_occurrences]

theorem ofTrimmed_enclosed {q : Char} (h : IsQuote q) {s : List Char}
    (hmarker : Marker.first? s = none) :
    ofTrimmed (Text.enclosed q s) = .text (String.ofList s) := by
  rw [ofTrimmed, first?_enclosed h, hmarker, readNumber?_enclosed h, unquote?_enclosed h]
  rfl

/-! ## Written values -/

/-- A text is written as it is, if it is read as itself, or between quotes. -/
theorem css_text (s : String) : (ofText s = .text s ∧ (text s).css = s) ∨
    (ofText s ≠ .text s ∧ ∃ q, IsQuote q ∧ (text s).css.toList = Text.enclosed q s.toList) := by
  unfold css
  dsimp only
  split
  · rename_i h
    exact .inl ⟨h, rfl⟩
  · rename_i h
    refine .inr ⟨h, ?_⟩
    split
    · exact ⟨'\'', .inr rfl, by simp [Text.enclosed]⟩
    · exact ⟨'"', .inl rfl, by simp [Text.enclosed]⟩

/-- The values that can be written: texts without marker and finite numbers. -/
def IsWritable : StyleValue → Prop
  | number x => x.isFinite = true
  | text s => Marker.occursIn s = false

theorem first?_eq_none_of_occursIn {s : String} (h : Marker.occursIn s = false) :
    Marker.first? s.toList = none := by
  rwa [Marker.occursIn, Option.isSome_eq_false_iff, Option.isNone_iff_eq_none] at h

/-- The text of a number has only the characters of numbers. -/
theorem isNumberChar_of_mem_text {x : Binary64} (h : x.isFinite = true) :
    ∀ c ∈ x.text.toList, isNumberChar c = true := by
  obtain ⟨y, hy, -⟩ := Binary64.readNumber?_text h
  exact isNumberChar_of_readNumber? hy

theorem occursIn_css {v : StyleValue} (h : v.IsWritable) : Marker.occursIn v.css = false := by
  cases v with
  | number x =>
    have hmem : '_' ∉ x.text.toList := fun hmem =>
      absurd (isNumberChar_of_mem_text h _ hmem) (by decide)
    rw [css, Marker.occursIn, Marker.first?_of_not_mem hmem]
    rfl
  | text s =>
    rcases css_text s with ⟨-, hcss⟩ | ⟨-, q, hq, hcss⟩
    · rw [hcss]
      exact h
    · rw [Marker.occursIn, hcss, first?_enclosed hq]
      exact h

theorem isBlank_eq_false_of_isNumberChar {c : Char} (h : isNumberChar c = true) :
    Text.isBlank c = false := by
  rw [isNumberChar, Bool.or_eq_true] at h
  rcases h with h | h
  · simp only [Text.Digit.isAscii, Bool.and_eq_true, decide_eq_true_eq] at h
    have hlow : 48 ≤ c.toNat := h.1
    have hhigh : c.toNat ≤ 57 := h.2
    exact Text.isBlank_eq_false_of_ascii (by omega) (by omega)
  · have hothers : "-.pxemr".toList.all (fun c => !Text.isBlank c) = true := by decide
    simpa using List.all_eq_true.1 hothers c (of_decide_eq_true h)

theorem isBlank_of_mem_text {x : Binary64} (h : x.isFinite = true) :
    ∀ c ∈ x.text.toList, Text.isBlank c = false := fun c hc =>
  isBlank_eq_false_of_isNumberChar (isNumberChar_of_mem_text h c hc)

theorem isTight_text {x : Binary64} (h : x.isFinite = true) : Text.IsTight x.text.toList := by
  refine ⟨fun hnil => ?_, Text.trimChars_eq_self_iff.2 ⟨fun c hc => ?_, fun c hc => ?_⟩⟩
  · obtain ⟨y, hy, -⟩ := Binary64.readNumber?_text h
    rw [hnil] at hy
    simp [readNumber?, readUnsigned?, takeDigits] at hy
  · exact isBlank_of_mem_text h c (List.mem_of_mem_head? hc)
  · exact isBlank_of_mem_text h c (List.mem_of_getLast? hc)

/-- **A value is read back** from what is written for it. -/
theorem ofText_css {v : StyleValue} (h : v.IsWritable) : (ofText v.css).Same v := by
  cases v with
  | number x =>
    obtain ⟨y, hy, hsame⟩ := Binary64.readNumber?_text h
    have hmarker := first?_eq_none_of_occursIn (occursIn_css h)
    rw [css] at hmarker ⊢
    rw [ofText, (isTight_text h).2, ofTrimmed, hmarker, hy]
    exact .number hsame
  | text s =>
    rcases css_text s with ⟨hself, hcss⟩ | ⟨-, q, hq, hcss⟩
    · rw [hcss, hself]
      exact .text s
    · rw [ofText, hcss, (Text.isTight_enclosed hq.isBlank _).2,
        ofTrimmed_enclosed hq (first?_eq_none_of_occursIn h), String.ofList_toList]
      exact .text s

/-- What is written for a value ends no declaration. -/
theorem semicolon_not_mem_css {v : StyleValue} (h : v.IsWritable)
    (htext : ∀ s, v = .text s → ';' ∉ s.toList) : ';' ∉ v.css.toList := by
  cases v with
  | number x => exact fun hmem => absurd (isNumberChar_of_mem_text h _ hmem) (by decide)
  | text s =>
    have hs := htext s rfl
    rcases css_text s with ⟨-, hcss⟩ | ⟨-, q, hq, hcss⟩
    · rwa [hcss]
    · have hne : ';' ≠ q := by rcases hq with rfl | rfl <;> decide
      rw [hcss, Text.enclosed]
      simp [hs, hne]

/-- Only the empty text is written as a blank one. -/
theorem trimChars_css_ne_nil {v : StyleValue} (h : v.IsWritable) (hne : v ≠ .text "") :
    Text.trimChars v.css.toList ≠ [] := by
  cases v with
  | number x =>
    rw [css, (isTight_text h).2]
    exact (isTight_text h).1
  | text s =>
    rcases css_text s with ⟨hself, hcss⟩ | ⟨-, q, hq, hcss⟩
    · intro hnil
      rw [hcss] at hnil
      rw [ofText, hnil, ofTrimmed_nil] at hself
      exact hne hself.symm
    · rw [hcss, (Text.isTight_enclosed hq.isBlank _).2]
      exact (Text.isTight_enclosed hq.isBlank _).1

/-! ## Words of a written value -/

/-- A text that is read, out of its quotes if it has them. -/
theorem toList_of_ofText {value s : String} (hmarker : Marker.occursIn value = false)
    (h : ofText value = .text s) : s.toList =
      (unquote? (Text.trimChars value.toList)).getD (Text.trimChars value.toList) := by
  rw [ofText, ofTrimmed, Marker.first?_trimChars, first?_eq_none_of_occursIn hmarker] at h
  cases hnumber : readNumber? (Text.trimChars value.toList) with
  | some x => simp [hnumber] at h
  | none =>
    have hs : String.ofList ((unquote? (Text.trimChars value.toList)).getD
        (Text.trimChars value.toList)) = s := by simpa [hnumber] using h
    rw [← hs, String.toList_ofList]

theorem infix_of_ofText {value s : String} (hmarker : Marker.occursIn value = false)
    (h : ofText value = .text s) : s.toList <:+: value.toList := by
  rw [toList_of_ofText hmarker h]
  cases hquote : unquote? (Text.trimChars value.toList) with
  | none => exact Text.trimChars_isInfix _
  | some inner => exact (unquote?_isInfix hquote).trans (Text.trimChars_isInfix _)

/-- What is read as a text is this text or has it between quotes. -/
theorem eq_of_ofText {value s : String} (hvalue : Text.IsTight value.toList)
    (hmarker : Marker.occursIn value = false) (h : ofText value = .text s) :
    value = s ∨ ∃ q, IsQuote q ∧ value.toList = Text.enclosed q s.toList := by
  have hs := toList_of_ofText hmarker h
  rw [hvalue.2] at hs
  cases hquote : unquote? value.toList with
  | none =>
    rw [hquote, Option.getD_none] at hs
    exact .inl (String.toList_inj.1 hs).symm
  | some inner =>
    rw [hquote, Option.getD_some] at hs
    rw [hs]
    exact .inr (exists_of_unquote? hquote)

/-- A text that is read as itself is trimmed. -/
theorem isTight_of_ofText_self {s : String} (hmarker : Marker.occursIn s = false) (hs : s ≠ "")
    (h : ofText s = .text s) : Text.IsTight s.toList := by
  have htrim : ofText (Text.trim s) = .text s := by rw [ofText_trim, h]
  have hchars : (Text.trim s).toList = Text.trimChars s.toList := by
    rw [Text.trim, String.toList_ofList]
  have htight : Text.IsTight (Text.trim s).toList := by
    rw [hchars]
    refine Text.isTight_trimChars fun hnil => hs ?_
    rw [ofText, hnil, ofTrimmed_nil, text.injEq] at h
    exact h.symm
  have hmarker' : Marker.occursIn (Text.trim s) = false := by
    rw [Marker.occursIn, Marker.first?_trim]
    exact hmarker
  rcases eq_of_ofText htight hmarker' htrim with heq | ⟨q, -, hquoted⟩
  · rwa [heq] at htight
  · -- a trimmed text is not longer than the text itself
    have hlength := (Text.trimChars_isInfix s.toList).length_le
    rw [← hchars, hquoted, Text.enclosed, List.length_cons, List.length_append] at hlength
    omega

/-- **A text that is written again has as many words as before**, and blanks just if it had some:
the quotes that come and go belong to its first and its last word. -/
theorem words_css {value s : String} (hvalue : Text.IsTight value.toList)
    (hmarker : Marker.occursIn value = false) (h : ofText value = .text s) (hs : s ≠ "") :
    Text.wordCount (Text.trimChars (text s).css.toList) = Text.wordCount value.toList ∧
      (Text.trimChars (text s).css.toList).any Text.isBlank = value.toList.any Text.isBlank := by
  rcases eq_of_ofText hvalue hmarker h with rfl | ⟨q, hq, hquoted⟩
  · rcases css_text value with ⟨-, hcss⟩ | ⟨hne, -⟩
    · rw [hcss, hvalue.2]
      exact ⟨rfl, rfl⟩
    · exact absurd h hne
  · rw [hquoted, Text.any_isBlank_enclosed hq.isBlank]
    rcases css_text s with ⟨hself, hcss⟩ | ⟨-, q', hq', hcss⟩
    · have hinner : Marker.occursIn s = false := by
        rwa [Marker.occursIn, hquoted, first?_enclosed hq] at hmarker
      have htight := isTight_of_ofText_self hinner hs hself
      rw [hcss, htight.2, Text.wordCount_enclosed hq.isBlank htight]
      exact ⟨rfl, rfl⟩
    · rw [hcss, (Text.isTight_enclosed hq'.isBlank _).2, Text.any_isBlank_enclosed hq'.isBlank]
      refine ⟨Text.wordCount_congr ?_, rfl⟩
      simp [Text.enclosed, hq.isBlank, hq'.isBlank]

end TemplateStyles.StyleValue
