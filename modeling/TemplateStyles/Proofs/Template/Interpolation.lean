import TemplateStyles.Proofs.Template.TemplateDeclaration
import TemplateStyles.StyleModule.Basic
/-!
# What becomes of an interpolation

An evaluated property takes its value from one expression, that in the first hole of its
declaration. Main result `represented_or_reported_iff`: of the expressions in a declaration that
counts, only this one is evaluated, and the others go without a word unless the property itself is
unknown. `two_holes_unreported` is a template that loses an expression.
-/
namespace TemplateStyles

/-- A shorthand that is kept as one value has no marker, in its value or around it. -/
theorem Declaration.occursIn_text_of_isAmbiguous {d : Declaration} (h : d.isAmbiguous = true) :
    Marker.occursIn d.text = false := by
  simp only [isAmbiguous, Bool.and_eq_true, Bool.not_eq_true', decide_eq_true_eq] at h
  obtain ⟨⟨⟨hvalue, -⟩, hproperty⟩, -⟩ := h
  have hfront : '_' ∉ (d.property ++ ": ").toList := by
    have hnames : ∀ name ∈ BoxShorthand.inBlocks, '_' ∉ (name ++ ": ").toList := by decide
    exact hnames _ hproperty
  rw [Marker.occursIn, text, String.toList_append, Marker.first?_append_of_not_mem hfront]
  exact hvalue

namespace Template

/-- A template with one expression between each two literal parts, which do not look like markers.
The number of expressions has to fit in a machine word. -/
structure WellFormed (t : Template) : Prop where
  length_parts : t.parts.length = t.expressions.length + 1
  length_expressions : t.expressions.length ≤ UInt64.size
  no_opening : ∀ part ∈ t.parts, ¬ Marker.opening <:+: part.toList

/-- Some entry of the patch evaluates the expression at `i`. -/
def Represents (t : Template) (c : SheetCounter) (i : Nat) : Prop :=
  ∃ patch, (t.emission c).instructions.patch = some patch ∧
    ∃ entry ∈ patch.entries, entry.expression = i

/-- Some finding names the declaration or its property. -/
def Finds (t : Template) (d : Declaration) : Prop :=
  d.canonical ∈ t.block.findings.unknown ∨ d.text ∈ t.block.findings.ambiguous ∨
    d.canonical ∈ t.block.findings.relocated

/-- Some notice names the declaration or its property. -/
def Notifies (t : Template) (o : Options) (file : String) (index : Nat) (c : SheetCounter)
    (d : Declaration) : Prop :=
  .ambiguousShorthand d.text ∈ t.notices o file index c ∨
    ∃ value, .droppedDynamic file d.canonical value ∈ t.notices o file index c

variable {t : Template}

/-! ## From the template to the patch -/

theorem declarations_css (h : t.WellFormed) : Block.declarations t.css =
    (TemplateDeclaration.ofParts t.parts).map TemplateDeclaration.written :=
  TemplateDeclaration.declarations_join h.length_parts.le

theorem rule_eq (h : t.WellFormed) : t.block.rule =
    StyleRule.ofWrites ((TemplateDeclaration.ofParts t.parts).map fun d => d.written.write) := by
  rw [block, Block.rule_ofText, declarations_css h, List.map_map, Function.comp_def]

/-- An evaluated property takes its value from the expression in a declaration's first hole. -/
theorem exists_declaration_of_mem (h : t.WellFormed) {e : String × StyleValue}
    (he : e ∈ t.block.rule.dynamicEntries) :
    ∃ d ∈ TemplateDeclaration.ofParts t.parts, ∃ i, d.expression? = some i ∧
      e.2.expression? t.expressions.length = some i := by
  rw [rule_eq h] at he
  obtain ⟨w, hw, hevaluated⟩ := StyleRule.mem_evaluated_of_mem he
  obtain ⟨d, hd, rfl⟩ := List.mem_map.1 hw
  obtain ⟨hmarker, hentry⟩ := Declaration.mem_write_evaluated hevaluated
  obtain ⟨i, hi⟩ : ∃ i, d.expression? = some i := by
    rw [← Option.isSome_iff_exists, ← TemplateDeclaration.occursIn_written_value hd h.no_opening]
    exact hmarker
  refine ⟨d, hd, i, hi, ?_⟩
  rw [hentry, TemplateDeclaration.expression?_ofText_written_value hd h.no_opening
    h.length_parts.le h.length_expressions hmarker, hi]

theorem evaluated_rule (t : Template) : t.block.rule.evaluated = t.block.rule.dynamicEntries :=
  StyleRule.evaluated_of_misplaced (Block.misplaced_ofText t.css)

/-- The expressions of the patch are those of the evaluated properties. -/
theorem represents_iff {c : SheetCounter} {i : Nat} : t.Represents c i ↔
    ∃ e ∈ t.block.rule.dynamicEntries, e.2.expression? t.expressions.length = some i := by
  have hpatch : (t.emission c).instructions.patch = patchBuilder?
      (t.block.rule.dynamicEntries.filterMap (PatchEntry.ofDynamic? t.expressions.length)) := by
    rw [← evaluated_rule, emission, emit]
  rw [Represents, hpatch]
  generalize hentries : t.block.rule.dynamicEntries.filterMap
    (PatchEntry.ofDynamic? t.expressions.length) = entries
  have hmem : (∃ entry ∈ entries, entry.expression = i) ↔
      ∃ e ∈ t.block.rule.dynamicEntries, e.2.expression? t.expressions.length = some i := by
    simp only [← hentries, List.mem_filterMap, PatchEntry.ofDynamic?, Option.map_eq_some_iff]
    constructor
    · rintro ⟨-, ⟨e, he, j, hj, rfl⟩, rfl⟩
      exact ⟨e, he, hj⟩
    · rintro ⟨e, he, hi⟩
      exact ⟨_, ⟨e, he, i, hi, rfl⟩, rfl⟩
  rw [← hmem]
  cases entries <;> simp [patchBuilder?]

/-- Nothing is dropped: a marker that stands in a block names an expression. -/
theorem dropped_emission (h : t.WellFormed) (c : SheetCounter) : (t.emission c).dropped = [] := by
  have hdropped : (t.emission c).dropped = t.block.rule.dynamicEntries.filter
      fun e => (PatchEntry.ofDynamic? t.expressions.length e).isNone := by
    rw [← evaluated_rule, emission, emit]
  rw [hdropped]
  refine List.filter_eq_nil_iff.2 fun e he => ?_
  obtain ⟨-, -, i, -, hi⟩ := exists_declaration_of_mem h he
  simp [PatchEntry.ofDynamic?, hi]

/-! ## What is reported -/

section Reported

variable {d : Declaration} (hd : d ∈ Block.declarations t.css)
  (hmarker : Marker.occursIn d.value = true)

include hmarker in
theorem text_not_mem_ambiguous : d.text ∉ t.block.findings.ambiguous := by
  have hin : d.value.toList <:+: d.text.toList := by
    rw [Declaration.text, String.toList_append]
    exact (List.suffix_append ..).isInfix
  rw [block, Block.findings_ofText]
  intro hmem
  obtain ⟨d', hd', he⟩ := List.mem_map.1 hmem
  have hfalse : Marker.occursIn d.text = false := by
    rw [← he]
    exact Declaration.occursIn_text_of_isAmbiguous (List.mem_filter.1 hd').2
  rw [Marker.occursIn_eq_false_of_infix hin hfalse] at hmarker
  exact absurd hmarker (by simp)

include hd hmarker in
/-- Of a declaration with a marker, only an unknown property is found. -/
theorem finds_iff : t.Finds d ↔ Property.isKnown d.canonical = false := by
  have hambiguous := text_not_mem_ambiguous (t := t) hmarker
  have hrelocated : t.block.findings.relocated = [] := by rw [block, Block.findings_ofText]
  have hunknown : d.canonical ∈ t.block.findings.unknown ↔
      Property.isKnown d.canonical = false := by
    rw [block, Block.findings_ofText, List.mem_filter, Bool.not_eq_true',
      and_iff_right (List.mem_map_of_mem hd)]
  simp [Finds, hambiguous, hrelocated, hunknown]

include hmarker in
/-- A declaration with a marker gets no notice. -/
theorem not_notifies (h : t.WellFormed) (o : Options) (file : String) (index : Nat)
    (c : SheetCounter) : ¬ t.Notifies o file index c d := by
  have hfindings : .ambiguousShorthand d.text ∉ t.block.findings.notices := by
    have hambiguous := text_not_mem_ambiguous (t := t) hmarker
    simpa [Findings.notices] using hambiguous
  have hvalue : ∀ value, .droppedDynamic file d.canonical value ∉ t.block.findings.notices := by
    simp [Findings.notices]
  have hemission : (t.emission c).notices file = [] := by
    rw [Emission.notices, dropped_emission h, List.map_nil]
  have houtcome : ∀ n ∈ t.outcomeNotices o file index (t.emission c).instructions,
      n = .nothingUsable file index ∨ ∃ e, n = .keptAsWritten file index e := by
    intro n hn
    unfold outcomeNotices at hn
    split at hn
    · exact .inl (List.mem_singleton.1 hn)
    · split at hn
      · simp at hn
      · exact .inr ⟨_, List.mem_singleton.1 hn⟩
  unfold Notifies notices
  rw [hemission, List.append_nil]
  rintro (hmem | ⟨value, hmem⟩) <;> rcases List.mem_append.1 hmem with hmem | hmem
  · exact hfindings hmem
  · simpa using houtcome _ hmem
  · exact hvalue value hmem
  · simpa using houtcome _ hmem

end Reported

/-- **What becomes of an interpolation.** An expression that stands in the value of a declaration
which nothing behind it overwrites is evaluated by the patch or reported just if it is the first one
in the value or the property is unknown. -/
theorem represented_or_reported_iff (t : Template) (h : t.WellFormed)
    {front back : List TemplateDeclaration} {d : TemplateDeclaration}
    (hd : TemplateDeclaration.ofParts t.parts = front ++ d :: back)
    (hlast : ∀ d' ∈ back, d.written.canonical ∉ d'.written.write.replaced) {i : Nat}
    (hi : .hole i ∈ d.value) (o : Options) (file : String) (index : Nat) (c : SheetCounter) :
    t.Represents c i ∨ t.Finds d.written ∨ t.Notifies o file index c d.written ↔
      d.expression? = some i ∨ Property.isKnown d.written.canonical = false := by
  have hmem : d ∈ TemplateDeclaration.ofParts t.parts := by rw [hd]; simp
  have hwritten : d.written ∈ Block.declarations t.css := by
    rw [declarations_css h]
    exact List.mem_map_of_mem hmem
  obtain ⟨j, hj⟩ : ∃ j, d.expression? = some j := by
    rw [← Option.isSome_iff_exists, TemplateDeclaration.expression?, Glyph.firstHole?,
      List.findSome?_isSome_iff]
    exact ⟨_, hi, rfl⟩
  have hmarker : Marker.occursIn d.written.value = true := by
    rw [TemplateDeclaration.occursIn_written_value hmem h.no_opening, hj]
    rfl
  rw [or_iff_left (not_notifies hmarker h o file index c), finds_iff hwritten hmarker]
  refine or_congr_left ?_
  rw [represents_iff]
  constructor
  · -- the declaration with this expression in its first hole is the only one that has it
    rintro ⟨e, he, hindex⟩
    obtain ⟨d', hd', j', hj', hindex'⟩ := exists_declaration_of_mem h he
    rw [hindex, Option.some.injEq] at hindex'
    rw [← hindex'] at hj'
    have hsame : d = d' := TemplateDeclaration.eq_of_hole_mem hmem hd' hi
      (TemplateDeclaration.hole_mem_of_expression? hj')
    rw [hsame, hj']
  · intro hfirst
    have hwrite := Declaration.write_of_occursIn hmarker
    have hevaluated : (d.written.canonical, StyleValue.ofText d.written.value) ∈
        t.block.rule.dynamicEntries := by
      rw [rule_eq h, hd, List.map_append, List.map_cons]
      refine StyleRule.mem_dynamicEntries_ofWrites (by rw [hwrite]; simp [Write.evaluated]) ?_
      simpa using hlast
    refine ⟨_, hevaluated, ?_⟩
    rw [TemplateDeclaration.expression?_ofText_written_value hmem h.no_opening h.length_parts.le
      h.length_expressions hmarker, hfirst]

/-- The middle one of three declarations that write the padding: its first expression is kept. -/
theorem represented_or_reported_iff_first :
    let t : Template := ⟨some "Card", .css, ["padding: ", "; padding-top: calc(", " + ",
      "); margin: 4px 8px"], [⟨"all", false⟩, ⟨"top", false⟩, ⟨"gap", false⟩]⟩
    let before : TemplateDeclaration := ⟨"padding".toList.map .char, [.char ' ', .hole 0]⟩
    let d : TemplateDeclaration := ⟨" padding-top".toList.map .char,
      " calc(".toList.map .char ++ .hole 1 :: (" + ".toList.map .char ++ [.hole 2, .char ')'])⟩
    let behind : TemplateDeclaration := ⟨" margin".toList.map .char, " 4px 8px".toList.map .char⟩
    t.WellFormed ∧ TemplateDeclaration.ofParts t.parts = [before] ++ d :: [behind] ∧
      (∀ d' ∈ [behind], d.written.canonical ∉ d'.written.write.replaced) ∧
      .hole 1 ∈ d.value ∧ .hole 2 ∈ d.value ∧
      (t.Represents .start 1 ∨ t.Finds d.written ∨
        t.Notifies .standard "card.css" 0 .start d.written) ∧
      ¬ (t.Represents .start 2 ∨ t.Finds d.written ∨
        t.Notifies .standard "card.css" 0 .start d.written) := by
  intro t before d behind
  have h : t.WellFormed := ⟨rfl, by decide, by decide +kernel⟩
  have hd : TemplateDeclaration.ofParts t.parts = [before] ++ d :: [behind] := by
    decide +kernel
  have hlast : ∀ d' ∈ [behind], d.written.canonical ∉ d'.written.write.replaced := by
    decide +kernel
  have hfirst : d.expression? = some 1 := by decide +kernel
  have hknown : Property.isKnown d.written.canonical = true := by decide +kernel
  have h₁ : .hole 1 ∈ d.value := by decide +kernel
  have h₂ : .hole 2 ∈ d.value := by decide +kernel
  refine ⟨h, hd, hlast, h₁, h₂, ?_, ?_⟩
  · rw [represented_or_reported_iff t h hd hlast h₁ .standard "card.css" 0 .start]
    exact .inl hfirst
  · rw [represented_or_reported_iff t h hd hlast h₂ .standard "card.css" 0 .start]
    simp [hfirst, hknown]

/-- The second of two expressions in one value goes without a word. -/
theorem two_holes_unreported :
    let t : Template :=
      ⟨some "Card", .css, ["padding: ", " ", ";"], [⟨"top", false⟩, ⟨"side", false⟩]⟩
    (t.emission .start).instructions.patch.map (·.entries) = some [⟨"padding", 0⟩] ∧
      t.block.findings = .none ∧ t.notices .standard "card.css" 0 .start = [] := by
  decide +kernel

end Template

end TemplateStyles
