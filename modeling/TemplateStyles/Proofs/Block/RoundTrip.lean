import TemplateStyles.Proofs.Block.Sides
import TemplateStyles.Proofs.Block.ValuePrinting
import TemplateStyles.Proofs.Property.Spelling
/-!
# Fixed properties are read back

The fixed properties of a block, written as a block, are its declarations in order
(`declarations_toCss`), and each of them writes its property with its value (`write_printed`). Main
result `ofText_toCss`: reading what was written gives the same rule, as long as the table of
properties does not rename one of them and no value is empty or infinite.
-/
namespace TemplateStyles

/-- Whether a shorthand is expanded depends only on how many values it has. -/
theorem BoxFamily.expand?_eq_none_iff {α : Type} (f : BoxFamily) (part : BoxPart)
    (values : List α) : f.expand? part values = none ↔
      ¬ (values.length = 1 ∨ part = .all ∧ (values.length = 2 ∨ values.length = 4)) := by
  rcases values with _ | ⟨a, _ | ⟨b, _ | ⟨c, _ | ⟨d, _ | ⟨e, rest⟩⟩⟩⟩⟩ <;> cases part <;>
    simp [expand?]

namespace Declaration

theorem expandShorthand?_eq_none_congr {value value' : String} (property : String)
    (hblank : Text.hasBlank (Text.trim value) = Text.hasBlank (Text.trim value'))
    (hwords : (Text.words value).length = (Text.words value').length) :
    expandShorthand? property value = none ↔ expandShorthand? property value' = none := by
  unfold expandShorthand? BoxShorthand.expandAmong?
  rw [hblank]
  split
  · split
    · simp only [Option.bind_eq_none_iff, BoxFamily.expand?_eq_none_iff, List.length_map, hwords]
    · rfl
  · rfl

/-! ## Declarations of a block -/

/-- The two sides of a declaration that was read from a block. -/
structure IsRead (d : Declaration) : Prop where
  property_tight : Text.IsTight d.property.toList
  property_colon : ':' ∉ d.property.toList
  property_semicolon : ';' ∉ d.property.toList
  value_tight : Text.IsTight d.value.toList
  value_semicolon : ';' ∉ d.value.toList

theorem isRead_of_mem {css : String} {d : Declaration} (h : d ∈ Block.declarations css) :
    d.IsRead := by
  rw [Block.declarations_eq] at h
  obtain ⟨piece, hpiece, hd⟩ := List.mem_filterMap.1 h
  have hsemicolon : ';' ∉ piece := fun hmem => by simpa using Text.not_of_mem_splitOnP hpiece hmem
  by_cases hcolon : ':' ∈ piece
  · obtain ⟨x, y, rfl, hx⟩ := List.eq_append_cons_of_mem hcolon
    rw [ofText?_colon hx] at hd
    split at hd
    · simp at hd
    · rename_i hne
      rw [not_or] at hne
      rw [← Option.some.inj hd]
      have hproperty := (Text.trimChars_isInfix x).subset
      have hvalue := (Text.trimChars_isInfix y).subset
      constructor <;> rw [String.toList_ofList]
      · exact Text.isTight_trimChars hne.1
      · exact fun hmem => hx (hproperty hmem)
      · exact fun hmem => hsemicolon (List.mem_append_left _ (hproperty hmem))
      · exact Text.isTight_trimChars hne.2
      · exact fun hmem => hsemicolon
          (List.mem_append_right _ (List.mem_cons_of_mem _ (hvalue hmem)))
  · have hnone : ofText? (String.ofList piece) = none :=
      ofText?_of_no_colon (by rwa [String.toList_ofList])
    rw [hnone] at hd
    simp at hd

/-- A declaration that is not expanded is not expanded with its value written again either. -/
theorem kept_css {d : Declaration} (h : d.IsRead) (hmarker : Marker.occursIn d.value = false)
    (hkept : expandShorthand? d.property d.value = none)
    (hwritable : (StyleValue.ofText d.value).IsWritable)
    (hne : StyleValue.ofText d.value ≠ .text "") :
    expandShorthand? d.property (Text.trim (StyleValue.ofText d.value).css) = none := by
  cases hv : StyleValue.ofText d.value with
  | number x =>
    rw [hv] at hwritable
    have hblank : Text.hasBlank (Text.trim (Text.trim x.text)) = false := by
      rw [Text.trim_trim, Text.trim_of_isTight (StyleValue.isTight_text hwritable), Text.hasBlank,
        List.any_eq_false]
      intro c hc
      rw [StyleValue.isBlank_of_mem_text hwritable c hc]
      simp
    rw [StyleValue.css, expandShorthand?, if_neg (by simp [hblank])]
  | text s =>
    have hs : s ≠ "" := fun hs => hne (by rw [hv, hs])
    obtain ⟨hwords, hblanks⟩ := StyleValue.words_css h.value_tight hmarker hv hs
    refine (expandShorthand?_eq_none_congr d.property ?_ ?_).2 hkept
    · rw [Text.trim_trim, Text.trim_of_isTight h.value_tight, Text.hasBlank, Text.hasBlank,
        Text.toList_trim, hblanks]
    · rw [Text.length_words, Text.length_words, Text.toList_trim, hwords]

theorem IsRead.isName_canonical {d : Declaration} (h : d.IsRead) :
    Property.IsName d.canonical :=
  Property.isName_normalize h.property_tight h.property_colon h.property_semicolon

end Declaration

/-! ## Names of whole boxes -/

namespace Property

theorem plain_of_mem_inBlocks {name : String} (h : name ∈ BoxShorthand.inBlocks) {c : Char}
    (hc : c ∈ name.toList) : c ≠ '-' ∧ c.isUpper = false := by
  have hnames : ∀ name ∈ BoxShorthand.inBlocks,
      name.toList.all (fun c => c != '-' && !c.isUpper) = true := by decide
  simpa using List.all_eq_true.1 (hnames name h) c hc

/-- A whole box has no other name. -/
theorem eq_of_normalize_mem {p : String} (htight : Text.IsTight p.toList)
    (h : normalize p ∈ BoxShorthand.inBlocks) : normalize p = p := by
  rw [normalize, Text.trim_of_isTight htight, normalizeTrimmed] at h ⊢
  by_cases hhyphen : '-' ∈ p.toList
  · rw [if_pos hhyphen] at h
    cases hlisted : canonical? (lower p) with
    | some name =>
      rw [hlisted] at h
      have hnames : ∀ e ∈ canonicalNames, e.2 ∉ BoxShorthand.inBlocks := by decide +kernel
      exact absurd h (hnames _ (Entries.mem_of_find? hlisted))
    | none =>
      rw [hlisted] at h
      obtain ⟨c, hc, hkind⟩ := exists_mem_camelChars hhyphen
      have hplain := plain_of_mem_inBlocks h (c := c) (by rwa [Option.getD_none, toCamel,
        String.toList_ofList])
      rcases hkind with hkind | hkind
      · exact absurd hkind hplain.1
      · rw [hplain.2] at hkind
        exact absurd hkind (by simp)
  · rw [if_neg hhyphen]

theorem eq_of_toKebab_mem {k : String} (h : toKebab k ∈ BoxShorthand.inBlocks) :
    toKebab k = k := by
  have hhyphen : '-' ∉ kebabChars k.toList := fun hmem =>
    (plain_of_mem_inBlocks h (by rwa [toKebab, String.toList_ofList])).1 rfl
  rw [toKebab, kebabChars_eq_self hhyphen, String.ofList_toList]

end Property

/-! ## Entries of a rule -/

namespace StyleValue

/-- Neither an empty text nor a number that is not finite. -/
def IsProper : StyleValue → Prop
  | number x => x.isFinite = true
  | text s => s ≠ ""

instance : DecidablePred IsProper
  | number x => inferInstanceAs (Decidable (x.isFinite = true))
  | text s => inferInstanceAs (Decidable (s ≠ ""))

theorem IsProper.ne_empty {v : StyleValue} (h : v.IsProper) : v ≠ .text "" := by
  rintro rfl
  exact h rfl

end StyleValue

namespace StyleRule

theorem foldl_putStatic_of_static (entries : List (String × StyleValue)) {r : StyleRule}
    (h : r.dynamic = []) : entries.foldl (fun r e => r.putStatic e.1 e.2) r =
      ⟨r.static.insertAll entries, []⟩ := by
  induction entries generalizing r with
  | nil => rw [← h]; rfl
  | cons e rest ih =>
    have hdynamic : (r.putStatic e.1 e.2).dynamic = [] := by simp [putStatic, dropDynamic, h]
    rw [List.foldl_cons, ih hdynamic]
    rfl

/-- Fixed properties alone are put one after the other. -/
theorem ofWrites_static (entries : List (String × StyleValue)) :
    ofWrites (entries.map fun e => .static e.1 e.2) = ⟨OrderedMap.ofList entries, []⟩ := by
  rw [ofWrites, List.foldl_map]
  exact foldl_putStatic_of_static entries rfl

end StyleRule

namespace Block

theorem exists_declaration_of_mem {css : String} {e : String × StyleValue}
    (h : e ∈ (ofText css).rule.static.entries) : ∃ d ∈ declarations css, e ∈ d.write.fixed := by
  rw [rule_ofText] at h
  obtain ⟨w, hw, hfixed⟩ := StyleRule.mem_fixed_of_get?_static (OrderedMap.get?_eq_some_iff.2 h)
  obtain ⟨d, hd, rfl⟩ := List.mem_map.1 hw
  exact ⟨d, hd, hfixed⟩

/-- The name of a fixed property. -/
theorem isName_of_mem {css : String} {e : String × StyleValue}
    (h : e ∈ (ofText css).rule.static.entries) : Property.IsName e.1 := by
  obtain ⟨d, hd, hfixed⟩ := exists_declaration_of_mem h
  obtain ⟨-, ⟨he, -⟩ | ⟨f, part, -, hkey, -⟩⟩ := Declaration.mem_write_fixed hfixed
  · rw [he]
    dsimp only
    exact (Declaration.isRead_of_mem hd).isName_canonical
  · have hkeys : ∀ (f : BoxFamily) (part : BoxPart), Property.IsName (f.key part) := by
      rintro ⟨⟩ ⟨⟩ <;> decide
    rw [hkey]
    exact hkeys f part

/-- A text that is a fixed value ends no declaration. -/
theorem semicolon_of_mem {css : String} {e : String × StyleValue}
    (h : e ∈ (ofText css).rule.static.entries) : ∀ s, e.2 = .text s → ';' ∉ s.toList := by
  obtain ⟨d, hd, hfixed⟩ := exists_declaration_of_mem h
  have hsemicolon := (Declaration.isRead_of_mem hd).value_semicolon
  obtain ⟨hmarker, hcases⟩ := Declaration.mem_write_fixed hfixed
  intro s hs hmem
  rcases hcases with ⟨he, -⟩ | ⟨f, part, -, -, word, hword, hv⟩
  · rw [he] at hs
    exact hsemicolon ((StyleValue.infix_of_ofText hmarker hs).subset hmem)
  · have hwithin := Text.infix_of_mem_words hword
    have hmarker' := Marker.occursIn_eq_false_of_infix hwithin hmarker
    rw [hv] at hs
    exact hsemicolon (hwithin.subset ((StyleValue.infix_of_ofText hmarker' hs).subset hmem))

/-- A fixed value under the name of a whole box is not expanded when it is written again. -/
theorem kept_of_mem {css : String} {e : String × StyleValue}
    (h : e ∈ (ofText css).rule.static.entries) (hwritable : e.2.IsWritable)
    (hne : e.2 ≠ .text "") :
    Declaration.expandShorthand? (Property.toKebab e.1) (Text.trim e.2.css) = none := by
  by_cases hbox : Property.toKebab e.1 ∈ BoxShorthand.inBlocks
  · have hkebab := Property.eq_of_toKebab_mem hbox
    rw [hkebab] at hbox ⊢
    obtain ⟨d, hd, hfixed⟩ := exists_declaration_of_mem h
    have hread := Declaration.isRead_of_mem hd
    obtain ⟨hmarker, ⟨he, hkept⟩ | ⟨f, part, hpart, hkey, -⟩⟩ := Declaration.mem_write_fixed hfixed
    · rw [he] at hbox hwritable hne ⊢
      dsimp only at hbox hwritable hne ⊢
      have hproperty : d.canonical = d.property :=
        Property.eq_of_normalize_mem hread.property_tight hbox
      rw [hproperty]
      exact Declaration.kept_css hread hmarker hkept hwritable hne
    · have hkeys : ∀ (f : BoxFamily) (part : BoxPart), part ≠ .all →
          f.key part ∉ BoxShorthand.inBlocks := by rintro ⟨⟩ ⟨⟩ <;> decide
      rw [hkey] at hbox
      exact absurd hbox (hkeys f part hpart)
  · refine Declaration.expandShorthand?_of_not_mem ?_ _
    rwa [Text.trim_of_isTight (isName_of_mem h).isTight_toKebab]

end Block

/-! ## Writing entries -/

namespace StyleMap

/-- An entry that is read back when it is written. -/
structure IsPrintable (e : String × StyleValue) : Prop where
  name : Property.IsName e.1
  canonical : Property.normalize (Property.toKebab e.1) = e.1
  writable : e.2.IsWritable
  ne_empty : e.2 ≠ .text ""
  semicolon : ';' ∉ e.2.css.toList
  kept : Declaration.expandShorthand? (Property.toKebab e.1) (Text.trim e.2.css) = none

/-- The declaration that an entry is written as. -/
def printed (e : String × StyleValue) : Declaration :=
  ⟨Property.toKebab e.1, Text.trim e.2.css⟩

/-- The text of this declaration, without its end. -/
def printedChars (e : String × StyleValue) : List Char :=
  (Property.toKebab e.1).toList ++ ':' :: ' ' :: e.2.css.toList

theorem toList_declaration (e : String × StyleValue) :
    (declaration e).toList = printedChars e ++ [';'] := by
  simp [declaration, printedChars]

variable {e : String × StyleValue}

theorem semicolon_not_mem_printedChars (h : IsPrintable e) : ';' ∉ printedChars e := by
  have hname : ';' ∉ (Property.toKebab e.1).toList :=
    Property.not_mem_toKebab (by decide) (by decide) h.name.semicolon
  simp [printedChars, hname, h.semicolon]

theorem ofText?_printedChars (h : IsPrintable e) :
    Declaration.ofText? (String.ofList (printedChars e)) = some (printed e) := by
  have hcolon : ':' ∉ (Property.toKebab e.1).toList :=
    Property.not_mem_toKebab (by decide) (by decide) h.name.colon
  have htight := h.name.isTight_toKebab
  have hblank : Text.trimChars (' ' :: e.2.css.toList) = Text.trimChars e.2.css.toList := by
    have hspace : Text.isBlank ' ' = true := by decide
    rw [Text.trimChars, Text.trimStart, List.dropWhile_cons_of_pos hspace]
    rfl
  have hvalue := StyleValue.trimChars_css_ne_nil h.writable h.ne_empty
  rw [printedChars, Declaration.ofText?_colon hcolon, htight.2, hblank,
    if_neg (by simp [htight.1, hvalue]), String.ofList_toList]
  rfl

/-- What is written for an entry writes the entry. -/
theorem write_printed (h : IsPrintable e) :
    (printed e).write = .static e.1 (.ofText e.2.css) := by
  have hcanonical : (printed e).canonical = e.1 := h.canonical
  have hmarker : Marker.occursIn (printed e).value = false := by
    rw [printed, Marker.occursIn, Marker.first?_trim]
    exact StyleValue.occursIn_css h.writable
  have hkept : Declaration.expandShorthand? (printed e).property (printed e).value = none := h.kept
  rw [Declaration.write, hmarker, hkept, hcanonical, printed, StyleValue.ofText_trim]
  rfl

end StyleMap

namespace Block

/-! ## Reading what was written -/

theorem declarations_semicolon {front : List Char} (h : ';' ∉ front) (rest : List Char) :
    declarations (String.ofList (front ++ ';' :: rest)) =
      (Declaration.ofText? (String.ofList front)).toList ++ declarations (String.ofList rest) := by
  rw [declarations_eq, String.toList_ofList, List.splitOn_append_cons_self_of_not_mem h,
    List.filterMap_cons, declarations_eq, String.toList_ofList]
  cases Declaration.ofText? (String.ofList front) <;> rfl

/-- A line break before a declaration does not matter. -/
theorem declarations_newline (rest : List Char) :
    declarations (String.ofList ('\n' :: rest)) = declarations (String.ofList rest) := by
  have hne : ('\n' == ';') = false := by decide
  have hblank : Text.isBlank '\n' = true := by decide
  obtain ⟨first, others, hsplit⟩ := List.exists_cons_of_ne_nil (List.splitOn_ne_nil ';' rest)
  have htrim : Text.trim (String.ofList ('\n' :: first)) = Text.trim (String.ofList first) := by
    rw [Text.trim, Text.trim, String.toList_ofList, String.toList_ofList, Text.trimChars,
      Text.trimStart, List.dropWhile_cons_of_pos hblank]
    rfl
  rw [declarations_eq, declarations_eq, String.toList_ofList, String.toList_ofList,
    List.splitOn_cons_eq_if_modifyHead, hne, hsplit]
  simp only [Bool.false_eq_true, if_false, List.modifyHead_cons, List.filterMap_cons]
  rw [← Declaration.ofText?_trim (String.ofList ('\n' :: first)), htrim, Declaration.ofText?_trim]

theorem declarations_intercalate : ∀ {entries : List (String × StyleValue)},
    (∀ e ∈ entries, StyleMap.IsPrintable e) →
      declarations ("\n".intercalate (entries.map StyleMap.declaration)) =
        entries.map StyleMap.printed
  | [], _ => by decide
  | [e], h => by
    have he := h e (List.mem_singleton_self e)
    have htext : "\n".intercalate ([e].map StyleMap.declaration) =
        String.ofList (StyleMap.printedChars e ++ ';' :: []) := by
      rw [← StyleMap.toList_declaration, String.ofList_toList, List.map_cons, List.map_nil,
        String.intercalate_singleton]
    have hempty : declarations (String.ofList []) = [] := by decide
    rw [htext, declarations_semicolon (StyleMap.semicolon_not_mem_printedChars he),
      StyleMap.ofText?_printedChars he, hempty]
    rfl
  | e :: e' :: rest, h => by
    have he := h e (List.mem_cons_self ..)
    have hrest : declarations ("\n".intercalate ((e' :: rest).map StyleMap.declaration)) =
        (e' :: rest).map StyleMap.printed :=
      declarations_intercalate fun e he => h e (List.mem_cons_of_mem _ he)
    have htext : "\n".intercalate ((e :: e' :: rest).map StyleMap.declaration) =
        String.ofList (StyleMap.printedChars e ++ ';' :: '\n' ::
          ("\n".intercalate ((e' :: rest).map StyleMap.declaration)).toList) := by
      have hbreak : "\n".toList = ['\n'] := rfl
      rw [← String.toList_inj, List.map_cons, List.map_cons, String.intercalate_cons_cons,
        String.toList_append, String.toList_append, StyleMap.toList_declaration, hbreak,
        String.toList_ofList, List.append_assoc, List.append_assoc, List.singleton_append,
        List.singleton_append]
    rw [htext, declarations_semicolon (StyleMap.semicolon_not_mem_printedChars he),
      StyleMap.ofText?_printedChars he, declarations_newline, String.ofList_toList, hrest]
    rfl

/-- **A map that is written has one declaration for each entry**, in order. -/
theorem declarations_toCss {m : StyleMap} (h : ∀ e ∈ m.entries, StyleMap.IsPrintable e) :
    declarations m.toCss = m.entries.map StyleMap.printed := declarations_intercalate h

/-- An entry as it is read back. -/
def reread (e : String × StyleValue) : String × StyleValue := (e.1, .ofText e.2.css)

/-- A map that is written is read back with its values read again. -/
theorem rule_ofText_toCss {m : StyleMap} (h : ∀ e ∈ m.entries, StyleMap.IsPrintable e) :
    (ofText m.toCss).rule.dynamic = [] ∧
      (ofText m.toCss).rule.static.entries = m.entries.map reread := by
  have hwrites : m.entries.map (fun e => (StyleMap.printed e).write) =
      (m.entries.map reread).map fun e => .static e.1 e.2 := by
    rw [List.map_map]
    refine List.map_congr_left fun e he => ?_
    rw [StyleMap.write_printed (h e he)]
    rfl
  have hkeys : ((m.entries.map reread).map Prod.fst).Nodup := by
    rw [List.map_map]
    exact m.nodup
  rw [rule_ofText, declarations_toCss h, List.map_map, Function.comp_def, hwrites,
    StyleRule.ofWrites_static]
  exact ⟨rfl, OrderedMap.entries_ofList hkeys⟩

/-- What was read from a block can be written. -/
theorem isPrintable_of_mem {css : String} {e : String × StyleValue}
    (h : e ∈ (ofText css).rule.static.entries) (hproper : e.2.IsProper)
    (hlisted : ∀ name ∈ Property.canonical? (Property.lower (Property.toKebab e.1)), name = e.1) :
    StyleMap.IsPrintable e := by
  have hwritable : e.2.IsWritable := by
    have hmarker := static_hasMarker h
    cases hv : e.2 with
    | number x => rwa [hv] at hproper
    | text s => rwa [hv] at hmarker
  have hne := hproper.ne_empty
  exact {
    name := isName_of_mem h
    canonical := Property.normalize_toKebab (isName_of_mem h) hlisted
    writable := hwritable
    ne_empty := hne
    semicolon := StyleValue.semicolon_not_mem_css hwritable (semicolon_of_mem h)
    kept := kept_of_mem h hwritable hne }

/-- **Fixed properties that are written are read back**: a block without markers gives the same
rule when its fixed properties are written as a block, with the same properties in the same order
and each number as the same number. No value may be empty or infinite, and where the table of
properties has the hyphenated spelling of a property, it must be listed for this property. -/
theorem ofText_toCss (css : String) :
    let rule := (ofText css).rule
    rule.dynamic = [] →
    (∀ v ∈ rule.static.values, v.IsProper) →
    (∀ k ∈ rule.static.keys,
      ∀ name ∈ Property.canonical? (Property.lower (Property.toKebab k)), name = k) →
    let again := (ofText rule.static.toCss).rule
    again.dynamic = rule.dynamic ∧
      List.Forall₂ (fun e e' => e.1 = e'.1 ∧ e.2.Same e'.2) again.static.entries
        rule.static.entries := by
  intro rule hfixed hproper hlisted again
  have hprintable : ∀ e ∈ rule.static.entries, StyleMap.IsPrintable e := fun e he =>
    isPrintable_of_mem he (hproper e.2 (List.mem_map_of_mem he))
      (hlisted e.1 (List.mem_map_of_mem he))
  obtain ⟨hdynamic, hentries⟩ := rule_ofText_toCss hprintable
  refine ⟨hdynamic.trans hfixed.symm, ?_⟩
  rw [hentries, List.forall₂_map_left_iff, List.forall₂_same]
  exact fun e he => ⟨rfl, StyleValue.ofText_css (hprintable e he).writable⟩

/-- Quotes go where a text stands for itself and stay where it would be read as a number. -/
theorem ofText_toCss_quoted :
    let rule := (ofText "padding: '1 2 3'; order: -3; z-index: '4'").rule
    let again := (ofText rule.static.toCss).rule
    rule.dynamic = [] ∧ (∀ v ∈ rule.static.values, v.IsProper) ∧
      (∀ k ∈ rule.static.keys,
        ∀ name ∈ Property.canonical? (Property.lower (Property.toKebab k)), name = k) ∧
      rule.static.toCss = "padding: 1 2 3;\norder: -3;\nz-index: \"4\";" ∧
      again.dynamic = rule.dynamic ∧
      List.Forall₂ (fun e e' => e.1 = e'.1 ∧ e.2.Same e'.2) again.static.entries
        rule.static.entries := by
  have hfixed : (ofText "padding: '1 2 3'; order: -3; z-index: '4'").rule.dynamic = [] := by
    decide +kernel
  have hproper : ∀ v ∈ (ofText "padding: '1 2 3'; order: -3; z-index: '4'").rule.static.values,
      v.IsProper := by decide +kernel
  have hlisted : ∀ k ∈ (ofText "padding: '1 2 3'; order: -3; z-index: '4'").rule.static.keys,
      ∀ name ∈ Property.canonical? (Property.lower (Property.toKebab k)), name = k := by
    decide +kernel
  exact ⟨hfixed, hproper, hlisted, by decide +kernel,
    ofText_toCss "padding: '1 2 3'; order: -3; z-index: '4'" hfixed hproper hlisted⟩

end Block

end TemplateStyles
