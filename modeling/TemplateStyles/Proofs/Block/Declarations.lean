import TemplateStyles.Block.Reader
import TemplateStyles.Proofs.Block.LastWrite
import TemplateStyles.Proofs.Text.MarkerScan
/-!
# The declarations of a block

A block is read as its declarations one after the other (`rule_ofText`): the blanks around a piece
do not matter (`ofText?_trim`). Only values with a marker are evaluated and only values without one
are fixed (`write_fixed_hasMarker`, `write_evaluated_hasMarker`), so nothing is left to relocate
(`misplaced_ofText`). What is noticed of each declaration is listed in order
(`findings_ofText`).
-/
namespace TemplateStyles

/-! ## Parts of a text -/

namespace Text

theorem infix_of_mem_words {s word : String} (h : word ∈ words s) : word.toList <:+: s.toList := by
  obtain ⟨part, hpart, rfl⟩ := List.mem_map.1 h
  rw [String.toList_ofList]
  exact infix_of_mem_splitOnP (List.mem_filter.1 hpart).1

end Text

/-! ## Markers in values -/

namespace StyleValue

theorem unquote?_isInfix {s inner : List Char} (h : unquote? s = some inner) : inner <:+: s := by
  unfold unquote? at h
  split at h
  · split at h
    · rw [← Option.some.inj h]
      exact (List.dropLast_prefix _).isInfix.trans (List.suffix_cons ..).isInfix
    · simp at h
  · simp at h

theorem ofText_trim (s : String) : ofText (Text.trim s) = ofText s := by
  rw [ofText, Text.trim, String.toList_ofList, Text.trimChars_trimChars, ofText]

/-- A value holds a marker just if the text does that it was read from. -/
theorem hasMarker_ofText (s : String) : (ofText s).hasMarker = Marker.occursIn s := by
  unfold Marker.occursIn
  rw [← Marker.first?_trimChars, ofText, ofTrimmed]
  generalize Text.trimChars s.toList = t
  cases hm : (Marker.first? t).isSome with
  | true =>
    rw [if_pos rfl, hasMarker, Marker.occursIn, String.toList_ofList, Marker.first?_dropUnit, hm]
  | false =>
    rw [if_neg (by simp)]
    have hnone : Marker.first? t = none := by simpa using hm
    split
    · rfl
    · rw [hasMarker, Marker.occursIn, String.toList_ofList, Option.isSome_eq_false_iff,
        Option.isNone_iff_eq_none]
      cases hu : unquote? t with
      | none => exact hnone
      | some inner => exact Marker.first?_eq_none_of_infix (unquote?_isInfix hu) hnone

end StyleValue

theorem Marker.occursIn_eq_false_of_infix {s t : String} (h : s.toList <:+: t.toList)
    (ht : occursIn t = false) : occursIn s = false := by
  unfold occursIn at ht ⊢
  rw [Option.isSome_eq_false_iff, Option.isNone_iff_eq_none] at ht ⊢
  exact first?_eq_none_of_infix h ht

/-- An expansion only places the values that it is given. -/
theorem BoxShorthand.mem_values_of_expandAmong? {α : Type} {targets : List String}
    {property : String} {values : List α} {entries : List (String × α)}
    (h : expandAmong? targets property values = some entries) : ∀ e ∈ entries, e.2 ∈ values := by
  unfold expandAmong? at h
  split at h
  · obtain ⟨s, -, hs⟩ := Option.bind_eq_some_iff.1 h
    unfold BoxFamily.expand? at hs
    split at hs <;> simp only [Option.some.injEq, reduceCtorEq] at hs <;> subst hs <;> simp
  · simp at h

/-- An expansion names properties that do not set the whole box. -/
theorem BoxShorthand.exists_key_of_expandAmong? {α : Type} {targets : List String}
    {property : String} {values : List α} {entries : List (String × α)}
    (h : expandAmong? targets property values = some entries) :
    ∀ e ∈ entries, ∃ (f : BoxFamily) (part : BoxPart), part ≠ .all ∧ e.1 = f.key part := by
  unfold expandAmong? at h
  split at h
  · obtain ⟨s, -, hs⟩ := Option.bind_eq_some_iff.1 h
    unfold BoxFamily.expand? at hs
    intro e he
    split at hs <;> simp only [Option.some.injEq, reduceCtorEq] at hs <;> subst hs
    · obtain ⟨side, hside, rfl⟩ := List.mem_map.1 he
      have hsides : ∀ part : BoxPart, .all ∉ part.sides := by rintro ⟨⟩ <;> decide
      exact ⟨_, side, fun hall => hsides _ (hall ▸ hside), rfl⟩
    · rcases List.mem_cons.1 he with rfl | he
      · exact ⟨_, .vertical, by decide, rfl⟩
      · exact ⟨_, .horizontal, by decide, by rw [List.mem_singleton.1 he]⟩
    · simp only [List.mem_cons, List.not_mem_nil, or_false] at he
      rcases he with rfl | rfl | rfl | rfl
      · exact ⟨_, .top, by decide, rfl⟩
      · exact ⟨_, .right, by decide, rfl⟩
      · exact ⟨_, .bottom, by decide, rfl⟩
      · exact ⟨_, .left, by decide, rfl⟩
  · simp at h

namespace Declaration

/-! ## Reading one declaration -/

theorem ofText?_of_no_colon {raw : String} (h : ':' ∉ raw.toList) : ofText? raw = none := by
  have hdrop : raw.toList.dropWhile (· ≠ ':') = [] :=
    List.dropWhile_eq_nil_iff.2 fun c hc => decide_eq_true fun e => h (e ▸ hc)
  rw [ofText?, hdrop]

theorem ofText?_colon {x y : List Char} (hx : ':' ∉ x) :
    ofText? (String.ofList (x ++ ':' :: y)) =
      if Text.trimChars x = [] ∨ Text.trimChars y = [] then none
      else some ⟨String.ofList (Text.trimChars x), String.ofList (Text.trimChars y)⟩ := by
  have hall : ∀ c ∈ x, decide (c ≠ ':') = true := fun c hc => decide_eq_true fun e => hx (e ▸ hc)
  have hdrop : (x ++ ':' :: y).dropWhile (· ≠ ':') = ':' :: y := by
    rw [List.dropWhile_append_of_pos hall, List.dropWhile_cons_of_neg (by simp)]
  have htake : (x ++ ':' :: y).takeWhile (· ≠ ':') = x := by
    rw [List.takeWhile_append_of_pos hall, List.takeWhile_cons_of_neg (by simp), List.append_nil]
  rw [ofText?, String.toList_ofList, hdrop, htake]
  simp only [Text.trim, String.toList_ofList, String.ofList_eq_empty_iff]

/-- The blanks around a declaration do not matter. -/
theorem ofText?_trim (raw : String) : ofText? (Text.trim raw) = ofText? raw := by
  by_cases h : ':' ∈ raw.toList
  · obtain ⟨x, y, e, hx⟩ := List.eq_append_cons_of_mem h
    have hx' : ':' ∉ Text.trimStart x := fun hmem => hx ((List.dropWhile_suffix _).subset hmem)
    have hraw : raw = String.ofList (x ++ ':' :: y) := by rw [← e, String.ofList_toList]
    rw [Text.trim, e, Text.trimChars_append_cons (by decide), ofText?_colon hx', hraw,
      ofText?_colon hx, Text.trimChars_trimStart, Text.trimChars_trimEnd]
  · rw [ofText?_of_no_colon h, ofText?_of_no_colon]
    rw [Text.trim, String.toList_ofList]
    exact fun hmem => h ((Text.trimChars_isInfix _).subset hmem)

/-! ## Writing one declaration -/

/-- Only the shorthands of a whole box are expanded. -/
theorem expandShorthand?_of_not_mem {property : String}
    (h : Text.trim property ∉ BoxShorthand.inBlocks) (value : String) :
    expandShorthand? property value = none := by
  rw [expandShorthand?]
  split
  · rw [BoxShorthand.expandAmong?, if_neg h]
  · rfl

theorem expandShorthand?_eq_none {property : String}
    (h : Property.normalize property ∉ BoxShorthand.inFragments) (value : String) :
    expandShorthand? property value = none := by
  have hcanonical : ∀ name ∈ BoxShorthand.inBlocks,
      Property.normalizeTrimmed name ∈ BoxShorthand.inFragments := by decide
  exact expandShorthand?_of_not_mem (fun hmem => h (hcanonical _ hmem)) value

/-- A declaration of one fixed value. -/
theorem write_of_literal {d : Declaration} (hd : d.canonical ∉ BoxShorthand.inFragments)
    (hvalue : Marker.occursIn d.value = false) :
    d.write = .static d.canonical (.ofText d.value) := by
  rw [write, hvalue, expandShorthand?_eq_none hd]
  rfl

/-- A declaration of a value that is evaluated. -/
theorem write_of_occursIn {d : Declaration} (hvalue : Marker.occursIn d.value = true) :
    d.write = .dynamic d.canonical (.ofText d.value) := by
  rw [write, if_pos hvalue]

theorem mem_write_evaluated {d : Declaration} {e : String × StyleValue}
    (h : e ∈ d.write.evaluated) :
    Marker.occursIn d.value = true ∧ e = (d.canonical, .ofText d.value) := by
  unfold write at h
  split at h
  · rename_i hm
    exact ⟨hm, List.mem_singleton.1 h⟩
  · split at h <;> simp [Write.evaluated] at h

/-- What is evaluated has a marker. -/
theorem write_evaluated_hasMarker {d : Declaration} {e : String × StyleValue}
    (h : e ∈ d.write.evaluated) : e.2.hasMarker = true := by
  obtain ⟨hm, rfl⟩ := mem_write_evaluated h
  rw [StyleValue.hasMarker_ofText, hm]

/-- A fixed value is that of a declaration that is not expanded, or a word of an expanded one under
the name of a longer property. -/
theorem mem_write_fixed {d : Declaration} {e : String × StyleValue} (h : e ∈ d.write.fixed) :
    Marker.occursIn d.value = false ∧
      ((e = (d.canonical, .ofText d.value) ∧ expandShorthand? d.property d.value = none) ∨
        ∃ (f : BoxFamily) (part : BoxPart), part ≠ .all ∧ e.1 = f.key part ∧
          ∃ word ∈ Text.words d.value, e.2 = .ofText word) := by
  unfold write at h
  split at h
  · simp [Write.fixed] at h
  · rename_i hm
    refine ⟨by simpa using hm, ?_⟩
    split at h
    · rename_i entries he
      unfold expandShorthand? at he
      split at he
      · obtain ⟨f, part, hpart, hkey⟩ := BoxShorthand.exists_key_of_expandAmong? he e h
        obtain ⟨word, hword, hv⟩ :=
          List.mem_map.1 (BoxShorthand.mem_values_of_expandAmong? he e h)
        exact .inr ⟨f, part, hpart, hkey, word, hword, hv.symm⟩
      · simp at he
    · rename_i hnone
      exact .inl ⟨List.mem_singleton.1 h, hnone⟩

/-- What is fixed has no marker. -/
theorem write_fixed_hasMarker {d : Declaration} {e : String × StyleValue}
    (h : e ∈ d.write.fixed) : e.2.hasMarker = false := by
  obtain ⟨hvalue, ⟨rfl, -⟩ | ⟨f, part, -, -, word, hword, hv⟩⟩ := mem_write_fixed h
  · exact (StyleValue.hasMarker_ofText _).trans hvalue
  · rw [hv, StyleValue.hasMarker_ofText]
    exact Marker.occursIn_eq_false_of_infix (Text.infix_of_mem_words hword) hvalue

end Declaration

namespace Block

/-! ## Reading a block -/

/-- The declarations of a block, in order. -/
def declarations (css : String) : List Declaration := (pieces css).filterMap Declaration.ofText?

theorem declarations_eq (css : String) :
    declarations css =
      (css.toList.splitOn ';').filterMap fun s => Declaration.ofText? (String.ofList s) := by
  rw [declarations, pieces]
  induction css.toList.splitOn ';' with
  | nil => rfl
  | cons s rest ih =>
    rw [List.map_cons, List.filterMap_cons, ← Declaration.ofText?_trim (String.ofList s)]
    by_cases hs : Text.trim (String.ofList s) = ""
    · have hnone : Declaration.ofText? "" = none := Declaration.ofText?_of_no_colon (by decide)
      rw [List.filter_cons_of_neg (by simpa using hs), ih, hs, hnone]
    · rw [List.filter_cons_of_pos (by simpa using hs), List.filterMap_cons, ih]

theorem rule_ofPieces (pieces : List String) :
    (ofPieces pieces).rule =
      StyleRule.ofWrites ((pieces.filterMap Declaration.ofText?).map Declaration.write) := by
  have hfold : ∀ b : Block, (pieces.foldl addPiece b).rule =
      ((pieces.filterMap Declaration.ofText?).map Declaration.write).foldl .apply b.rule := by
    induction pieces with
    | nil => intro b; rfl
    | cons piece rest ih =>
      intro b
      rw [List.foldl_cons, ih, List.filterMap_cons, addPiece]
      cases Declaration.ofText? piece <;> rfl
  exact hfold empty

theorem misplaced_ofWrites (ds : List Declaration) :
    (StyleRule.ofWrites (ds.map Declaration.write)).misplaced = [] := by
  refine List.filter_eq_nil_iff.2 fun e he hm => ?_
  obtain ⟨w, hw, hfixed⟩ := StyleRule.mem_fixed_of_get?_static (OrderedMap.get?_eq_some_iff.2 he)
  obtain ⟨d, -, rfl⟩ := List.mem_map.1 hw
  rw [Declaration.write_fixed_hasMarker hfixed] at hm
  exact absurd hm (by simp)

theorem relocate_of_misplaced {r : StyleRule} (h : r.misplaced = []) : r.relocate = r := by
  rw [StyleRule.relocate, h, List.foldl_nil]

theorem misplaced_ofPieces (pieces : List String) : (ofPieces pieces).rule.misplaced = [] := by
  rw [rule_ofPieces]
  exact misplaced_ofWrites _

theorem relocate_eq_self {b : Block} (h : b.rule.misplaced = []) : b.relocate = b := by
  rw [relocate, relocate_of_misplaced h, h, List.map_nil, List.append_nil]

/-- Nothing is left to be relocated. -/
theorem ofText_eq_ofPieces (css : String) : ofText css = ofPieces (pieces css) :=
  relocate_eq_self (misplaced_ofPieces _)

/-- **A block is read declaration by declaration.** -/
theorem rule_ofText (css : String) :
    (ofText css).rule = StyleRule.ofWrites ((declarations css).map Declaration.write) := by
  rw [ofText_eq_ofPieces, rule_ofPieces, declarations]

/-- The findings of a row of pieces, each with those of the pieces before it. -/
theorem findings_ofPieces (pieces : List String) :
    let ds := pieces.filterMap Declaration.ofText?
    (ofPieces pieces).findings =
      ⟨pieces.filter fun piece => (Declaration.ofText? piece).isNone,
        (ds.map Declaration.canonical).filter (!Property.isKnown ·),
        (ds.filter Declaration.isAmbiguous).map Declaration.text, []⟩ := by
  have hfold : ∀ b : Block, (pieces.foldl addPiece b).findings =
      ⟨b.findings.skipped ++ pieces.filter fun piece => (Declaration.ofText? piece).isNone,
        b.findings.unknown ++ ((pieces.filterMap Declaration.ofText?).map
          Declaration.canonical).filter (!Property.isKnown ·),
        b.findings.ambiguous ++ ((pieces.filterMap Declaration.ofText?).filter
          Declaration.isAmbiguous).map Declaration.text,
        b.findings.relocated⟩ := by
    induction pieces with
    | nil => intro b; simp
    | cons piece rest ih =>
      intro b
      rw [List.foldl_cons, ih, addPiece]
      cases hd : Declaration.ofText? piece with
      | none => simp [hd, Findings.addSkipped]
      | some d =>
        simp only [Findings.addDeclaration, List.filterMap_cons, hd, List.map_cons,
          List.filter_cons, Option.isNone_some, Bool.false_eq_true, if_false]
        by_cases hknown : Property.isKnown d.canonical = true <;>
          by_cases hambiguous : d.isAmbiguous = true <;> simp [hknown, hambiguous]
  exact hfold empty

theorem findings_ofText (css : String) : (ofText css).findings =
    ⟨(pieces css).filter fun piece => (Declaration.ofText? piece).isNone,
      ((declarations css).map Declaration.canonical).filter (!Property.isKnown ·),
      ((declarations css).filter Declaration.isAmbiguous).map Declaration.text, []⟩ := by
  rw [ofText_eq_ofPieces, findings_ofPieces, declarations]

theorem misplaced_ofText (css : String) : (ofText css).rule.misplaced = [] := by
  rw [ofText_eq_ofPieces, misplaced_ofPieces]

theorem partitioned_ofText (css : String) : (ofText css).rule.Partitioned := by
  rw [rule_ofText]
  exact StyleRule.ofWrites_partitioned _

end Block

end TemplateStyles
