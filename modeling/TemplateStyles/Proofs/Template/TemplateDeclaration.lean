import Mathlib.Data.List.Nodup
import Mathlib.Data.List.Pairwise
import TemplateStyles.Proofs.Sheet.Emission
import TemplateStyles.Proofs.Template.Glyph
/-!
# The declarations of a template

A template is cut into declarations before any text is made of it: at the semicolons and colons of
its literal parts. Its text has these declarations and no others (`declarations_join`), and the
marker that is found in a written value names the expression in the value's first hole
(`index?_written_value`). No expression stands in two of them (`eq_of_hole_mem`).
-/
namespace TemplateStyles

/-- A property and a value with holes. -/
structure TemplateDeclaration where
  property : List Glyph
  value : List Glyph
deriving DecidableEq

namespace TemplateDeclaration

open Glyph

/-- The declaration with markers in its holes. -/
def written (d : TemplateDeclaration) : Declaration :=
  ⟨Text.trim (String.ofList (text d.property)), Text.trim (String.ofList (text d.value))⟩

/-- Cuts at the first colon; neither side may be blank. -/
def ofGlyphs? (g : List Glyph) : Option TemplateDeclaration :=
  match g.dropWhile (· ≠ .char ':') with
  | [] => none
  | _ :: value =>
    let d : TemplateDeclaration := ⟨g.takeWhile (· ≠ .char ':'), value⟩
    if d.written.property = "" ∨ d.written.value = "" then none else some d

/-- The declarations of a template, in order. -/
def ofParts (parts : List String) : List TemplateDeclaration :=
  ((Glyph.ofParts parts).splitOn (.char ';')).filterMap ofGlyphs?

/-- The properties that a declaration sets. -/
def keys (d : TemplateDeclaration) : List String := d.written.write.keys

/-- The expression that a declaration takes its value from. -/
def expression? (d : TemplateDeclaration) : Option Nat := firstHole? d.value

/-! ## Reading the text -/

theorem semicolon_not_mem_ofIndex : ∀ i, ';' ∉ (Marker.ofIndex i).toList :=
  not_mem_ofIndex (by decide) (by decide)

theorem colon_not_mem_ofIndex : ∀ i, ':' ∉ (Marker.ofIndex i).toList :=
  not_mem_ofIndex (by decide) (by decide)

/-- Cutting the glyphs and then writing is writing and then reading. -/
theorem ofText?_text (g : List Glyph) :
    Declaration.ofText? (String.ofList (text g)) = (ofGlyphs? g).map written := by
  by_cases h : Glyph.char ':' ∈ g
  · obtain ⟨x, y, rfl, hx⟩ := List.eq_append_cons_of_mem h
    have hall : ∀ a ∈ x, decide (a ≠ .char ':') = true := fun a ha =>
      decide_eq_true fun e => hx (e ▸ ha)
    have hdrop : (x ++ .char ':' :: y).dropWhile (· ≠ .char ':') = .char ':' :: y := by
      rw [List.dropWhile_append_of_pos hall, List.dropWhile_cons_of_neg (by simp)]
    have htake : (x ++ .char ':' :: y).takeWhile (· ≠ .char ':') = x := by
      rw [List.takeWhile_append_of_pos hall, List.takeWhile_cons_of_neg (by simp),
        List.append_nil]
    rw [text_append, text_char_cons,
      Declaration.ofText?_colon (fun hmem => hx ((mem_text colon_not_mem_ofIndex).1 hmem)),
      ofGlyphs?, hdrop, htake]
    simp only [written, Text.trim, String.toList_ofList, String.ofList_eq_empty_iff]
    split <;> simp [written, Text.trim]
  · have hdrop : g.dropWhile (· ≠ .char ':') = [] :=
      List.dropWhile_eq_nil_iff.2 fun a ha => decide_eq_true fun e => h (e ▸ ha)
    have hcolon : ':' ∉ (String.ofList (text g)).toList := by
      rw [String.toList_ofList, mem_text colon_not_mem_ofIndex]
      exact h
    rw [Declaration.ofText?_of_no_colon hcolon, ofGlyphs?, hdrop]
    rfl

/-- **The text of a template has the template's declarations.** -/
theorem declarations_join {parts : List String} {count : Nat} (h : parts.length ≤ count + 1) :
    Block.declarations (Marker.join parts count) = (ofParts parts).map written := by
  rw [Block.declarations_eq, ← text_ofParts h, splitOn_text semicolon_not_mem_ofIndex,
    List.filterMap_map, ofParts, List.map_filterMap]
  exact List.filterMap_congr fun g _ => ofText?_text g

/-! ## Expressions of values -/

theorem value_suffix_of_ofGlyphs? {g : List Glyph} {d : TemplateDeclaration}
    (h : ofGlyphs? g = some d) : d.value <:+ g := by
  unfold ofGlyphs? at h
  split at h
  · simp at h
  · rename_i hdrop
    dsimp only at h
    split at h
    · simp at h
    · rw [← Option.some.inj h]
      have hsuffix := List.dropWhile_suffix (l := g) (· ≠ Glyph.char ':')
      rw [hdrop] at hsuffix
      exact (List.suffix_cons ..).trans hsuffix

theorem value_infix_of_mem {parts : List String} {d : TemplateDeclaration}
    (h : d ∈ ofParts parts) : d.value <:+: Glyph.ofParts parts := by
  obtain ⟨piece, hpiece, hd⟩ := List.mem_filterMap.1 h
  exact (value_suffix_of_ofGlyphs? hd).isInfix.trans (Text.infix_of_mem_splitOnP hpiece)

/-- No expression stands in two pieces of a template. -/
theorem nodup_flatMap_holes (parts : List String) :
    (((Glyph.ofParts parts).splitOn (.char ';')).flatMap holes).Nodup := by
  have hflatten := Text.flatten_splitOnP (· == Glyph.char ';') (Glyph.ofParts parts)
  have hsublist : (holes ((Glyph.ofParts parts).splitOn (.char ';')).flatten).Sublist
      (holes (Glyph.ofParts parts)) := by
    rw [List.splitOn_eq_splitOnP, hflatten]
    exact List.filter_sublist.filterMap hole?
  rw [holes, List.filterMap_flatten] at hsublist
  exact hsublist.nodup (nodup_holes_ofParts parts)

/-- No expression stands in two declarations. -/
theorem eq_of_hole_mem {parts : List String} {d d' : TemplateDeclaration} (hd : d ∈ ofParts parts)
    (hd' : d' ∈ ofParts parts) {i : Nat} (hi : .hole i ∈ d.value) (hi' : .hole i ∈ d'.value) :
    d = d' := by
  obtain ⟨piece, hpiece, hof⟩ := List.mem_filterMap.1 hd
  obtain ⟨piece', hpiece', hof'⟩ := List.mem_filterMap.1 hd'
  have hmem : i ∈ holes piece := mem_holes.2 ((value_suffix_of_ofGlyphs? hof).subset hi)
  have hmem' : i ∈ holes piece' := mem_holes.2 ((value_suffix_of_ofGlyphs? hof').subset hi')
  have hsymm : Std.Symm (Function.onFun List.Disjoint holes) := ⟨fun _ _ h _ hb ha => h ha hb⟩
  have heq : piece = piece' := Classical.byContradiction fun hne =>
    (List.nodup_flatMap.1 (nodup_flatMap_holes parts)).2.forall hpiece hpiece' hne hmem hmem'
  rw [heq, hof'] at hof
  exact (Option.some.inj hof).symm

theorem hole_mem_of_expression? {d : TemplateDeclaration} {i : Nat} (h : d.expression? = some i) :
    .hole i ∈ d.value := by
  obtain ⟨a, ha, hole⟩ := List.exists_of_findSome?_eq_some h
  cases a with
  | char c => simp [hole?] at hole
  | hole j => rwa [← Option.some.inj hole]

theorem expression?_lt {parts : List String} {d : TemplateDeclaration} (h : d ∈ ofParts parts)
    {i : Nat} (hi : d.expression? = some i) : i + 1 < parts.length := by
  have hmem := (value_infix_of_mem h).subset (hole_mem_of_expression? hi)
  simpa using lt_of_hole_mem hmem

variable {parts : List String} {d : TemplateDeclaration}

theorem first?_written_value (hd : d ∈ ofParts parts)
    (hparts : ∀ part ∈ parts, ¬ Marker.opening <:+: part.toList) :
    Marker.first? d.written.value.toList =
      d.expression?.map fun i => (Nat.repr i).toList := by
  have hvalue : d.written.value.toList = Text.trimChars (text d.value) := by
    simp only [written, Text.trim, String.toList_ofList]
  rw [hvalue, Marker.first?_trimChars]
  exact first?_text ((clean_ofParts hparts).of_isInfix (value_infix_of_mem hd))

/-- A value is evaluated just if it has a hole. -/
theorem occursIn_written_value (hd : d ∈ ofParts parts)
    (hparts : ∀ part ∈ parts, ¬ Marker.opening <:+: part.toList) :
    Marker.occursIn d.written.value = d.expression?.isSome := by
  rw [Marker.occursIn, first?_written_value hd hparts, Option.isSome_map]

/-- **The right expression is found**: the marker in a written value names the expression in the
first hole. An index has to fit in a machine word. -/
theorem index?_written_value (hd : d ∈ ofParts parts)
    (hparts : ∀ part ∈ parts, ¬ Marker.opening <:+: part.toList)
    (hword : parts.length ≤ UInt64.size + 1) :
    Marker.index? d.written.value = d.expression? := by
  have hfirst := first?_written_value hd hparts
  cases he : d.expression? with
  | none =>
    rw [he, Option.map_none] at hfirst
    rw [Marker.index?, hfirst, Option.bind_none]
  | some i =>
    rw [he, Option.map_some] at hfirst
    have hlt := expression?_lt hd he
    exact Marker.index?_of_first? hfirst (by omega)

/-- What is evaluated takes its value from the expression in the first hole. -/
theorem expression?_ofText_written_value (hd : d ∈ ofParts parts)
    (hparts : ∀ part ∈ parts, ¬ Marker.opening <:+: part.toList) {count : Nat}
    (hlength : parts.length ≤ count + 1) (hword : count ≤ UInt64.size)
    (hmarker : Marker.occursIn d.written.value = true) :
    (StyleValue.ofText d.written.value).expression? count = d.expression? := by
  rw [StyleValue.expression?_ofText hmarker, index?_written_value hd hparts (by omega)]
  cases he : d.expression? with
  | none => rfl
  | some i =>
    have hlt : i < count := by
      have := expression?_lt hd he
      omega
    simpa [Option.filter] using hlt

end TemplateDeclaration

end TemplateStyles
