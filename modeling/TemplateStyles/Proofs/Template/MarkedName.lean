import TemplateStyles.Proofs.Block.Sides
import TemplateStyles.Proofs.Property.Spelling
import TemplateStyles.Proofs.Template.Interpolation
/-!
# Markers in generated instructions

No registered text holds a marker, but a property name may: names are not looked at when values
with markers are told from those without. Main result `unmarked_iff`: the names that hold markers
are those of declarations whose own names do, once their hyphens are read as capital letters; an
expression that is interpolated into a name always leaves such a name. `marked_name_registered` is
a template whose sheet has one.
-/
namespace TemplateStyles

/-! ## Markers in canonical names -/

namespace Property

/-- A character that is no hyphen and no small letter is read by itself. -/
theorem camelChars_append_cons {c : Char} (hhyphen : c ≠ '-') (hlower : c.isLower = false)
    (x y : List Char) : camelChars (x ++ c :: y) = camelChars x ++ c :: camelChars y := by
  induction x using camelChars.induct with
  | case1 => exact camelChars_cons_of_ne hhyphen y
  | case2 d r hd ih =>
    rw [List.cons_append, List.cons_append, camelChars_of_isLower hd, camelChars_of_isLower hd, ih,
      List.cons_append]
  | case3 d r hd ih =>
    have hd' : d.isLower = false := by simpa using hd
    rw [List.cons_append] at ih
    rw [List.cons_append, List.cons_append, camelChars_of_not_isLower (by simpa using hd'),
      camelChars_of_not_isLower (by simpa using hd'), ih, List.cons_append]
  | case4 d r hd ih =>
    by_cases he : d = '-'
    · -- a hyphen that ends the text in front is followed by the character
      subst he
      have hr : r = [] := by
        cases r with
        | nil => rfl
        | cons e r => exact absurd rfl (hd e r rfl)
      subst hr
      rw [List.cons_append, List.nil_append, camelChars_of_not_isLower (by simpa using hlower),
        camelChars_cons_of_ne hhyphen]
      rfl
    · rw [List.cons_append, camelChars_cons_of_ne he, camelChars_cons_of_ne he, ih,
        List.cons_append]

theorem camelChars_append_of_not_mem {x : List Char} (h : '-' ∉ x) (y : List Char) :
    camelChars (x ++ y) = x ++ camelChars y := by
  induction x with
  | nil => rfl
  | cons c x ih =>
    simp only [List.mem_cons, not_or] at h
    rw [List.cons_append, camelChars_cons_of_ne (Ne.symm h.1), ih h.2, List.cons_append]

theorem hyphen_not_mem_ofDigits {ds : List Char} (h : Marker.IsDigits ds) :
    '-' ∉ Marker.ofDigits ds := by
  intro hmem
  simp only [Marker.ofDigits, Marker.opening_eq, Marker.closing_eq, List.mem_append,
    List.mem_cons] at hmem
  have hdigit : '-' ∉ ds := fun hd => absurd (h.isDecimal _ hd) (by decide)
  simp [hdigit] at hmem

/-- **Reading a hyphenated name keeps its markers.** -/
theorem within_toCamel {s : String} (h : Marker.Within s) : Marker.Within (toCamel s) := by
  obtain ⟨ds, hds, x, y, hs⟩ := h
  refine ⟨ds, hds, ?_⟩
  obtain ⟨r, hr⟩ : ∃ r, Marker.ofDigits ds = '_' :: r := ⟨_, by
    rw [← List.append_nil (Marker.ofDigits ds), Marker.ofDigits_append]⟩
  have hhyphen : '-' ∉ r := fun hmem =>
    hyphen_not_mem_ofDigits hds (by rw [hr]; exact List.mem_cons_of_mem _ hmem)
  rw [toCamel, String.toList_ofList, ← hs, hr, List.append_assoc, List.cons_append,
    camelChars_append_cons (by decide) (by decide), camelChars_append_of_not_mem hhyphen]
  exact ⟨camelChars x, camelChars y, by simp⟩

theorem underscore_mem_of_within {s : String} (h : Marker.Within s) : '_' ∈ s.toList := by
  obtain ⟨ds, -, hin⟩ := h
  refine hin.subset ?_
  simp [Marker.ofDigits, Marker.opening_eq]

/-- No listed name has to do with markers. -/
theorem canonical?_lower_of_underscore {s : String} (h : '_' ∈ s.toList) :
    canonical? (lower s) = none := by
  have hlisted : ∀ e ∈ canonicalNames, '_' ∉ e.1.toList := by decide +kernel
  have hlower : '_' ∈ (lower s).toList := by
    rw [lower, String.toList_ofList]
    exact List.mem_map.2 ⟨'_', h, by decide⟩
  refine Entries.find?_eq_none_iff.2 fun hmem => ?_
  obtain ⟨e, he, heq⟩ := List.mem_map.1 hmem
  exact hlisted e he (heq ▸ hlower)

/-- The canonical name of a property holds a marker just if its reading as a hyphenated name
does. -/
theorem within_normalize_iff {p : String} :
    Marker.Within (normalize p) ↔ Marker.Within (toCamel (Text.trim p)) := by
  rw [normalize, normalizeTrimmed]
  generalize Text.trim p = s
  by_cases hhyphen : '-' ∈ s.toList
  · rw [if_pos hhyphen]
    cases hlisted : canonical? (lower s) with
    | none => rfl
    | some name =>
      have halpha := (canonicalNames_isAlpha _ (Entries.mem_of_find? hlisted)).2
      have hname : '_' ∉ name.toList := fun hmem =>
        absurd (List.all_eq_true.1 halpha '_' hmem) (by decide)
      have hs : '_' ∉ s.toList := fun hmem => by
        rw [canonical?_lower_of_underscore hmem] at hlisted
        exact absurd hlisted (by simp)
      constructor
      · intro h
        exact absurd (underscore_mem_of_within h) hname
      · intro h
        have hmem := underscore_mem_of_within h
        rw [toCamel, String.toList_ofList] at hmem
        exact absurd (mem_of_mem_camelChars (by decide) hmem) hs
  · rw [if_neg hhyphen]
    have hsame : toCamel s = s := by
      have hchars := camelChars_append_of_not_mem hhyphen []
      rw [List.append_nil, camelChars_nil, List.append_nil] at hchars
      rw [toCamel, hchars, String.ofList_toList]
    rw [hsame]

end Property

/-- The names of box properties hold no markers. -/
theorem BoxFamily.not_within_key (f : BoxFamily) (part : BoxPart) :
    ¬ Marker.Within (f.key part) := by
  intro h
  have hmem := Property.underscore_mem_of_within h
  cases f <;> cases part <;> exact absurd hmem (by decide)

/-! ## Names that writes leave -/

namespace StyleRule

/-- The properties of a rule, fixed and evaluated. -/
def properties (r : StyleRule) : List String := r.static.keys ++ r.dynamicEntries.map Prod.fst

theorem mem_properties_iff {r : StyleRule} {k : String} :
    k ∈ r.properties ↔ r.static.get? k ≠ none ∨ k ∈ r.dynamicEntries.map Prod.fst := by
  rw [properties, List.mem_append, ne_eq, OrderedMap.get?_eq_none_iff, Classical.not_not]

/-- A write that replaces a property just if it sets it keeps or adds the property. -/
theorem mem_properties_apply {r : StyleRule} {w : Write} {k : String}
    (h : k ∈ w.replaced → k ∈ w.keys) :
    k ∈ (r.apply w).properties ↔ k ∈ r.properties ∨ k ∈ w.keys := by
  have hevaluated : k ∈ (r.apply w).dynamicEntries.map Prod.fst ↔
      (k ∈ r.dynamicEntries.map Prod.fst ∧ k ∉ w.replaced) ∨ k ∈ w.evaluated.map Prod.fst := by
    rw [dynamicEntries_apply, List.map_append, List.mem_append]
    refine or_congr_left ?_
    simp only [List.mem_map, List.mem_filter, decide_eq_true_eq]
    constructor
    · rintro ⟨e, ⟨he, hold⟩, rfl⟩
      exact ⟨⟨e, he, rfl⟩, hold⟩
    · rintro ⟨⟨e, he, rfl⟩, hold⟩
      exact ⟨e, ⟨he, hold⟩, rfl⟩
  have hfixed : Entries.find? k w.fixed.reverse = none ↔ k ∉ w.fixed.map Prod.fst := by
    rw [Entries.find?_eq_none_iff, List.map_reverse, List.mem_reverse]
  have hkeys : k ∈ w.keys ↔ k ∈ w.fixed.map Prod.fst ∨ k ∈ w.evaluated.map Prod.fst := by
    rw [Write.keys, List.map_append, List.mem_append]
  rw [mem_properties_iff, mem_properties_iff, hevaluated, get?_static_apply, ne_eq,
    Option.or_eq_none_iff, hfixed]
  by_cases hk : k ∈ w.keys
  · simp only [hk, or_true, iff_true]
    rcases hkeys.1 hk with hk' | hk'
    · exact .inl fun hnone => hnone.1 hk'
    · exact .inr (.inr hk')
  · have hreplaced : k ∉ w.replaced := fun hmem => hk (h hmem)
    have hnot := hk
    rw [hkeys, not_or] at hnot
    simp [hk, hnot.1, hnot.2, hreplaced]

/-- A row of such writes leaves the properties that it sets. -/
theorem mem_properties_ofWrites {writes : List Write} {k : String}
    (h : ∀ w ∈ writes, k ∈ w.replaced → k ∈ w.keys) :
    k ∈ (ofWrites writes).properties ↔ ∃ w ∈ writes, k ∈ w.keys := by
  induction writes using List.reverseRecOn with
  | nil => simp [properties, ofWrites, empty, dynamicEntries, OrderedMap.keys, OrderedMap.empty]
  | append_singleton writes w ih =>
    rw [ofWrites_append_singleton, mem_properties_apply (h w (by simp)),
      ih fun w' hw => h w' (List.mem_append_left _ hw)]
    constructor
    · rintro (⟨w', hw, hk⟩ | hk)
      · exact ⟨w', List.mem_append_left _ hw, hk⟩
      · exact ⟨w, by simp, hk⟩
    · rintro ⟨w', hw, hk⟩
      rcases List.mem_append.1 hw with hw | hw
      · exact .inl ⟨w', hw, hk⟩
      · exact .inr (List.mem_singleton.1 hw ▸ hk)

end StyleRule

namespace Declaration

variable {d : Declaration} {k : String}

/-- A declaration sets a name with a marker just if it is the declaration's own. -/
theorem mem_keys_write_iff (hk : Marker.Within k) : k ∈ d.write.keys ↔ d.canonical = k := by
  constructor
  · intro hmem
    obtain ⟨⟨key, value⟩, he, hkey⟩ := List.mem_map.1 hmem
    dsimp only at hkey
    subst hkey
    rcases List.mem_append.1 he with he | he
    · obtain ⟨-, ⟨hown, -⟩ | ⟨f, part, -, hside, -⟩⟩ := mem_write_fixed he
      · exact (Prod.mk.inj hown).1.symm
      · dsimp only at hside
        exact absurd (hside ▸ hk) (f.not_within_key part)
    · exact (Prod.mk.inj (mem_write_evaluated he).2).1.symm
  · rintro rfl
    have hname : Text.trim d.property ∉ BoxShorthand.inBlocks := by
      intro hmem
      have hcanonical : ∀ name ∈ BoxShorthand.inBlocks, '_' ∉ (Property.toCamel name).toList := by
        decide
      rw [canonical, Property.within_normalize_iff] at hk
      exact hcanonical _ hmem (Property.underscore_mem_of_within hk)
    rw [write, expandShorthand?_of_not_mem hname]
    split <;> simp [Write.keys, Write.fixed, Write.evaluated]

theorem mem_keys_of_mem_replaced (hk : Marker.Within k) (h : k ∈ d.write.replaced) :
    k ∈ d.write.keys := by
  revert h
  cases hw : d.write with
  | dynamic key value => simp [Write.replaced, Write.keys, Write.fixed, Write.evaluated]
  | static key value => simp [Write.replaced, Write.keys, Write.fixed, Write.evaluated]
  | expanded key entries =>
    intro h
    rcases List.mem_cons.1 h with rfl | h
    · rw [← hw, mem_keys_write_iff hk]
      unfold write at hw
      split at hw
      · simp at hw
      · split at hw <;> simp at hw
        exact hw.1
    · simpa [Write.keys, Write.fixed, Write.evaluated] using h

end Declaration

/-- The names with markers in a block are those of its declarations. -/
theorem Block.mem_properties_iff {css : String} {k : String} (hk : Marker.Within k) :
    k ∈ (ofText css).rule.properties ↔ ∃ d ∈ declarations css, d.canonical = k := by
  rw [rule_ofText, StyleRule.mem_properties_ofWrites]
  · constructor
    · rintro ⟨w, hw, hmem⟩
      obtain ⟨d, hd, rfl⟩ := List.mem_map.1 hw
      exact ⟨d, hd, (Declaration.mem_keys_write_iff hk).1 hmem⟩
    · rintro ⟨d, hd, hcanonical⟩
      exact ⟨d.write, List.mem_map_of_mem hd, (Declaration.mem_keys_write_iff hk).2 hcanonical⟩
  · intro w hw
    obtain ⟨d, -, rfl⟩ := List.mem_map.1 hw
    exact Declaration.mem_keys_of_mem_replaced hk

/-! ## Names in instructions -/

namespace Instructions

/-- The property names in instructions: those of the sheet and those of the patch. -/
def properties (i : Instructions) : List String :=
  (i.registration.map (·.properties.keys)).getD [] ++
    (i.patch.map (·.entries.map (·.property))).getD []

/-- The values of the sheet. -/
def values (i : Instructions) : List StyleValue :=
  (i.registration.map (·.properties.values)).getD []

end Instructions

namespace Template

variable {t : Template} {c : SheetCounter}

theorem registration_emission (t : Template) (c : SheetCounter) :
    (t.emission c).instructions.registration = registration? t.block.rule.static c :=
  StyleRule.registration_emit (Block.misplaced_ofText t.css) _ c

theorem values_emission : (t.emission c).instructions.values = t.block.rule.static.values := by
  rw [Instructions.values, registration_emission, registration?]
  by_cases h : t.block.rule.static.isEmpty = true
  · have hnil : t.block.rule.static.entries = [] := List.isEmpty_iff.1 h
    simp [h, OrderedMap.values, hnil]
  · simp [h]

/-- Every property of the block is in the instructions, unless it was dropped. -/
theorem mem_properties_emission {k : String} : k ∈ (t.emission c).instructions.properties ↔
    k ∈ t.block.rule.properties ∧ k ∉ (t.emission c).dropped.map Prod.fst := by
  have hpartition : t.block.rule.Partitioned := Block.partitioned_ofText t.css
  have hfixed : ((t.emission c).instructions.registration.map (·.properties.keys)).getD [] =
      t.block.rule.static.keys := by
    rw [registration_emission, registration?]
    by_cases h : t.block.rule.static.isEmpty = true
    · have hnil : t.block.rule.static.entries = [] := List.isEmpty_iff.1 h
      simp [h, OrderedMap.keys, hnil]
    · simp [h]
  have hpatch : ((t.emission c).instructions.patch.map (·.entries.map (·.property))).getD [] =
      (t.block.rule.dynamicEntries.filterMap
        (PatchEntry.ofDynamic? t.expressions.length)).map (·.property) := by
    rw [← evaluated_rule]
    simp only [emission, emit]
    generalize t.block.rule.evaluated.filterMap
      (PatchEntry.ofDynamic? t.expressions.length) = entries
    cases entries <;> rfl
  have hdropped : (t.emission c).dropped = t.block.rule.dynamicEntries.filter
      fun e => (PatchEntry.ofDynamic? t.expressions.length e).isNone := by
    rw [← evaluated_rule]
    simp only [emission, emit]
  have hevaluated : k ∈ (t.block.rule.dynamicEntries.filterMap
      (PatchEntry.ofDynamic? t.expressions.length)).map (·.property) ↔
      ∃ e ∈ t.block.rule.dynamicEntries, e.1 = k ∧
        (PatchEntry.ofDynamic? t.expressions.length e).isSome = true := by
    simp only [List.mem_map, List.mem_filterMap, PatchEntry.ofDynamic?, Option.map_eq_some_iff,
      Option.isSome_map, Option.isSome_iff_exists]
    constructor
    · rintro ⟨-, ⟨e, he, i, hi, rfl⟩, rfl⟩
      exact ⟨e, he, rfl, i, hi⟩
    · rintro ⟨e, he, rfl, i, hi⟩
      exact ⟨_, ⟨e, he, i, hi, rfl⟩, rfl⟩
  rw [Instructions.properties, hfixed, hpatch, hdropped, List.mem_append, hevaluated,
    StyleRule.properties, List.mem_append]
  simp only [List.mem_map, List.mem_filter]
  constructor
  · rintro (hk | ⟨e, he, rfl, hsome⟩)
    · refine ⟨.inl hk, ?_⟩
      rintro ⟨e, ⟨he, -⟩, rfl⟩
      exact OrderedMap.get?_eq_none_iff.1 (hpartition.disjoint e he) hk
    · refine ⟨.inr ⟨e, he, rfl⟩, ?_⟩
      rintro ⟨e', ⟨he', hnone⟩, hkey⟩
      rw [List.inj_on_of_nodup_map hpartition.nodup he' he hkey] at hnone
      simp [Option.isNone_iff_eq_none.1 hnone] at hsome
  · rintro ⟨hk | ⟨e, he, rfl⟩, hdropped⟩
    · exact .inl hk
    · refine .inr ⟨e, he, rfl, ?_⟩
      by_contra hnone
      exact hdropped ⟨e, ⟨he, by simpa using hnone⟩, rfl⟩

/-- An expression in a name leaves a marker in the canonical name. -/
theorem within_canonical_of_hole {d : TemplateDeclaration} {j : Nat} (h : .hole j ∈ d.property) :
    Marker.Within d.written.canonical := by
  have hwithin : Marker.Within d.written.property := by
    rw [← Marker.occursIn_iff_within, Marker.occursIn, TemplateDeclaration.written,
      Marker.first?_trim, String.toList_ofList, Marker.first?_isSome_iff]
    obtain ⟨x, y, hsplit⟩ := List.append_of_mem h
    refine ⟨_, Marker.isDigits_repr j, Glyph.text x, Glyph.text y, ?_⟩
    rw [hsplit, Glyph.text_append, Glyph.text_hole_cons, Marker.toList_ofIndex,
      List.append_assoc]
  rw [Declaration.canonical, Property.within_normalize_iff]
  have htrim : Text.trim d.written.property = d.written.property := Text.trim_trim _
  rw [htrim]
  exact Property.within_toCamel hwithin

/-- **Where markers stand in instructions.** No registered text holds one. All property names are
without markers just if no declaration is left that has a marker in its name, read with its hyphens
as capital letters. A declaration with an expression in its name always leaves a name with a
marker. -/
theorem unmarked_iff (t : Template) (c : SheetCounter) :
    let i := (t.emission c).instructions
    (∀ s, .text s ∈ i.values → ¬ Marker.Within s) ∧
      ((∀ k ∈ i.properties, ¬ Marker.Within k) ↔
        ∀ d ∈ Block.declarations t.css, Marker.Within (Property.toCamel (Text.trim d.property)) →
          d.canonical ∈ (t.emission c).dropped.map Prod.fst) ∧
      (t.WellFormed → ∀ d ∈ TemplateDeclaration.ofParts t.parts, ∀ j, .hole j ∈ d.property →
        d.written.canonical ∈ i.properties ∧ Marker.Within d.written.canonical) := by
  intro i
  have hnames : ∀ {k}, Marker.Within k → (k ∈ i.properties ↔
      (∃ d ∈ Block.declarations t.css, d.canonical = k) ∧
        k ∉ (t.emission c).dropped.map Prod.fst) := by
    intro k hk
    rw [mem_properties_emission, block, Block.mem_properties_iff hk]
  refine ⟨?_, ?_, ?_⟩
  · intro s hs hwithin
    rw [values_emission] at hs
    exact (Block.sides_ofText t.css).2.2 _ hs s rfl hwithin
  · constructor
    · intro h d hd hwithin
      rw [← Property.within_normalize_iff] at hwithin
      by_contra hdropped
      exact h d.canonical ((hnames hwithin).2 ⟨⟨d, hd, rfl⟩, hdropped⟩) hwithin
    · intro h k hk hwithin
      obtain ⟨⟨d, hd, rfl⟩, hdropped⟩ := (hnames hwithin).1 hk
      exact hdropped (h d hd (Property.within_normalize_iff.1 hwithin))
  · intro hformed d hd j hj
    have hwithin := within_canonical_of_hole hj
    have hdeclared : d.written ∈ Block.declarations t.css := by
      rw [declarations_css hformed]
      exact List.mem_map_of_mem hd
    refine ⟨(hnames hwithin).2 ⟨⟨d.written, hdeclared, rfl⟩, ?_⟩, hwithin⟩
    rw [dropped_emission hformed]
    simp

/-- An expression for the side of a margin, with a fixed and with an evaluated value. -/
theorem unmarked_iff_side :
    let t : Template := ⟨some "Card", .css, ["margin-", ": 4px; border-", ": ", ""],
      [⟨"side", false⟩, ⟨"edge", false⟩, ⟨"line", false⟩]⟩
    let i := (t.emission .start).instructions
    (∀ s, .text s ∈ i.values → ¬ Marker.Within s) ∧
      "margin-__EXPR_0__" ∈ i.properties ∧ "border-__EXPR_1__" ∈ i.properties ∧
      ¬ ∀ k ∈ i.properties, ¬ Marker.Within k := by
  intro t i
  have h : t.WellFormed := ⟨rfl, by decide, by decide +kernel⟩
  obtain ⟨hvalues, hnames, hholes⟩ := unmarked_iff t .start
  have hfixed := hholes h
    ⟨"margin-".toList.map .char ++ [.hole 0], " 4px".toList.map .char⟩
    (by decide +kernel) 0 (by decide)
  have hevaluated := hholes h
    ⟨" border-".toList.map .char ++ [.hole 1], [.char ' ', .hole 2]⟩
    (by decide +kernel) 1 (by decide)
  refine ⟨hvalues, ?_, ?_, fun hnone => hnone _ hfixed.1 hfixed.2⟩
  · convert hfixed.1 using 1
    decide +kernel
  · convert hevaluated.1 using 1
    decide +kernel

/-- A name with a marker is registered. -/
theorem marked_name_registered :
    let t : Template :=
      ⟨some "Card", .css, ["margin-", ": 4px; opacity: 0.5;"], [⟨"side", false⟩]⟩
    t.WellFormed ∧
      (t.emission .start).instructions.registration.map (·.properties.keys) =
        some ["margin-__EXPR_0__", "opacity"] ∧
      Marker.Within "margin-__EXPR_0__" := by
  refine ⟨⟨rfl, by decide, by decide +kernel⟩, by decide +kernel, ?_⟩
  rw [← Marker.occursIn_iff_within]
  decide +kernel

end Template

end TemplateStyles
