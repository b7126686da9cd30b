import TemplateStyles.Proofs.Sheet.Emission
import TemplateStyles.Proofs.Template.TemplateDeclaration
import TemplateStyles.Render.LateTemplate
/-!
# Templates read late are read right

Main result `metadata_of_template`: a template registers the fixed properties of its block, and
its patch gives each evaluated property the value of the interpolation that the template itself
has there, that in the first hole of the last declaration of the property. What the rule holds is
compared with the holes of the template, not with the markers in its text.
-/
namespace TemplateStyles.LateTemplate

/-- The last declaration of a template that sets a property. -/
def lastSetting? (t : LateTemplate) (property : String) : Option TemplateDeclaration :=
  ((TemplateDeclaration.ofParts t.parts).filter (property ∈ ·.keys)).getLast?

/-- The interpolation that a template gives a property. -/
def source? (t : LateTemplate) (property : String) : Option Interpolation :=
  (t.lastSetting? property).bind fun d => d.expression?.bind (t.values[·]?)

/-- A template with one value between each two literal parts, which do not look like markers. The
number of values has to fit in a machine word. -/
structure WellFormed (t : LateTemplate) : Prop where
  length_parts : t.parts.length = t.values.length + 1
  length_values : t.values.length ≤ UInt64.size
  no_opening : ∀ part ∈ t.parts, ¬ Marker.opening <:+: part.toList

variable {t : LateTemplate}

/-! ## From the rule to the template -/

theorem rule_eq (h : t.WellFormed) : t.block.rule =
    StyleRule.ofWrites ((TemplateDeclaration.ofParts t.parts).map fun d => d.written.write) := by
  rw [block, Block.rule_ofText, TemplateDeclaration.declarations_join h.length_parts.le,
    List.map_map, Function.comp_def]

/-- An evaluated property was set last by the declaration that the template has for it. -/
theorem exists_lastSetting (h : t.WellFormed) {e : String × StyleValue}
    (he : e ∈ t.block.rule.dynamicEntries) :
    ∃ d ∈ TemplateDeclaration.ofParts t.parts,
      t.lastSetting? e.1 = some d ∧ d.written.write = .dynamic e.1 e.2 := by
  rw [rule_eq h] at he
  have hlast := StyleRule.last_write_of_mem he
  rw [List.filter_map, List.getLast?_map, Option.map_eq_some_iff, Function.comp_def] at hlast
  obtain ⟨d, hd, hwrite⟩ := hlast
  refine ⟨d, (List.mem_filter.1 (List.mem_of_getLast? hd)).1, ?_, hwrite⟩
  simp only [lastSetting?, TemplateDeclaration.keys]
  exact hd

/-- The marker in the value of an evaluated property names the template's interpolation. -/
theorem source?_of_mem (h : t.WellFormed) {e : String × StyleValue}
    (he : e ∈ t.block.rule.dynamicEntries) :
    ∃ v, t.source? e.1 = some v ∧ e.2.source? t.values = some v := by
  obtain ⟨d, hd, hlast, hwrite⟩ := exists_lastSetting h he
  have hmem : e ∈ d.written.write.evaluated := by rw [hwrite]; simp [Write.evaluated]
  obtain ⟨hmarker, hentry⟩ := Declaration.mem_write_evaluated hmem
  obtain ⟨i, hi⟩ : ∃ i, d.expression? = some i := by
    rw [← Option.isSome_iff_exists, ← TemplateDeclaration.occursIn_written_value hd h.no_opening]
    exact hmarker
  have hlt : i < t.values.length := by
    have := TemplateDeclaration.expression?_lt hd hi
    have := h.length_parts
    omega
  have hvalue : e.2.expression? t.values.length = some i := by
    rw [hentry, TemplateDeclaration.expression?_ofText_written_value hd h.no_opening
      h.length_parts.le h.length_values hmarker, hi]
  refine ⟨t.values[i], ?_, ?_⟩
  · rw [source?, hlast, Option.bind_some, hi, Option.bind_some, List.getElem?_eq_getElem hlt]
  · rw [StyleValue.source?, hvalue, Option.bind_some, List.getElem?_eq_getElem hlt]

/-! ## The metadata -/

theorem misplaced_rule (t : LateTemplate) : t.block.rule.misplaced = [] := by
  rw [block]
  exact Block.misplaced_ofText _

theorem partitioned_rule (t : LateTemplate) : t.block.rule.Partitioned := by
  rw [block]
  exact Block.partitioned_ofText _

theorem patch_metadata (t : LateTemplate) (r : SheetRegistry) : (t.metadata r).1.patch =
    if t.block.rule.routes t.values = [] then none
    else some fun p => some (t.block.rule.patch t.values p) := by
  rw [metadata, emission]
  exact Metadata.patch_ofInstructions_emit t.misplaced_rule

theorem styles_metadata (t : LateTemplate) (r : SheetRegistry) :
    (t.metadata r).2.styles = r.styles ++
      if t.block.rule.static.isEmpty then [] else [StyleMap.toJson t.block.rule.static] := by
  rw [metadata, emission]
  exact Metadata.styles_ofInstructions_emit t.misplaced_rule

theorem staticStyles_metadata (t : LateTemplate) (r : SheetRegistry) :
    (t.metadata r).1.staticStyles.getD [] =
      if t.block.rule.static.isEmpty then [] else [.registered (r.size + 1)] := by
  rw [metadata, emission]
  exact Metadata.staticStyles_ofInstructions_emit t.misplaced_rule

theorem map_fst_routes (h : t.WellFormed) : (t.block.rule.routes t.values).map Prod.fst =
    t.block.rule.dynamicEntries.map Prod.fst := by
  refine StyleRule.map_fst_routes fun e he => ?_
  obtain ⟨v, -, hv⟩ := source?_of_mem h he
  rw [hv]; rfl

theorem routes_eq_nil_iff (h : t.WellFormed) :
    t.block.rule.routes t.values = [] ↔ t.block.rule.dynamicEntries = [] := by
  rw [← List.map_eq_nil_iff (f := Prod.fst), map_fst_routes h, List.map_eq_nil_iff]

/-- Every evaluated property has the value of the template's interpolation. -/
theorem get?_patch_of_mem (h : t.WellFormed) {e : String × StyleValue}
    (he : e ∈ t.block.rule.dynamicEntries) (props : Props) :
    ∃ v, t.source? e.1 = some v ∧
      (t.block.rule.patch t.values props).get? e.1 = some (v.evaluate props) := by
  obtain ⟨v, hsource, hv⟩ := source?_of_mem h he
  have hfind : Entries.find? e.1 t.block.rule.dynamicEntries = some e.2 :=
    (Entries.find?_eq_some_iff t.partitioned_rule.nodup).2 he
  refine ⟨v, hsource, ?_⟩
  rw [StyleRule.get?_patch t.partitioned_rule, hfind, Option.bind_some, hv, Option.map_some]

/-- **A template is read right.** It registers the fixed properties of its block as one style, and
nothing if there are none. It has a patch just if the block has evaluated properties; the patch then
holds each of them once, in the order of the rule and with the value of the interpolation that the
template gives the property, and none that is registered. -/
theorem metadata_of_template (t : LateTemplate) (h : t.WellFormed) (r : SheetRegistry) :
    let rule := t.block.rule
    let m := (t.metadata r).1
    (t.metadata r).2.styles =
      r.styles ++ (if rule.static.isEmpty then [] else [StyleMap.toJson rule.static]) ∧
    m.staticStyles.getD [] =
      (if rule.static.isEmpty then [] else [.registered (r.size + 1)]) ∧
    (m.patch = none ↔ rule.dynamicEntries = []) ∧
    ∀ props, rule.dynamicEntries ≠ [] → ∃ patch, m.evaluatePatch props = some patch ∧
      patch.keys = rule.dynamicEntries.map Prod.fst ∧
      ∀ k ∈ patch.keys, k ∉ rule.static.keys ∧
        ∃ v, t.source? k = some v ∧ patch.get? k = some (v.evaluate props) := by
  intro rule m
  refine ⟨t.styles_metadata r, t.staticStyles_metadata r, ?_, ?_⟩
  · show (t.metadata r).1.patch = none ↔ rule.dynamicEntries = []
    rw [patch_metadata t r, ← routes_eq_nil_iff h]
    split
    · rename_i hroutes
      exact ⟨fun _ => hroutes, fun _ => rfl⟩
    · rename_i hroutes
      exact ⟨fun e => by simp at e, fun e => absurd e hroutes⟩
  · intro props hne
    have hroutes : rule.routes t.values ≠ [] := fun e => hne ((routes_eq_nil_iff h).1 e)
    have hpatch : m.evaluatePatch props = some (rule.patch t.values props) := by
      show (t.metadata r).1.patch.bind (· props) = _
      rw [patch_metadata t r, if_neg hroutes, Option.bind_some]
    have hkeys : (rule.patch t.values props).keys = rule.dynamicEntries.map Prod.fst := by
      rw [StyleRule.keys_patch t.partitioned_rule, map_fst_routes h]
    refine ⟨_, hpatch, hkeys, fun k hk => ?_⟩
    rw [hkeys] at hk
    obtain ⟨e, he, rfl⟩ := List.mem_map.1 hk
    exact ⟨OrderedMap.get?_eq_none_iff.1 (t.partitioned_rule.disjoint e he),
      get?_patch_of_mem h he props⟩

/-- Underscores and digits around a hole, a unit behind one and a property that is set twice. -/
theorem metadata_of_template_underscores :
    let t : LateTemplate :=
      ⟨["padding: 4px 8px; color: ", "; border-width: _", "_1px; color: _", "; flex: 1"],
        [.value (.str "red"), .value (.num (.int 2)),
          .function fun p => (p.get? "$tint").getD .null]⟩
    let props : Props := .ofList [("$tint", .str "blue")]
    t.WellFormed ∧ t.block.rule.dynamicEntries.map Prod.fst = ["borderWidth", "color"] ∧
      ∃ patch, (t.metadata .empty).1.evaluatePatch props = some patch ∧
        patch.keys = ["borderWidth", "color"] ∧
        patch.get? "borderWidth" = some (.num (.int 2)) ∧
        patch.get? "color" = some (.str "blue") := by
  intro t props
  have h : t.WellFormed := ⟨rfl, by decide, by decide +kernel⟩
  have hkeys : t.block.rule.dynamicEntries.map Prod.fst = ["borderWidth", "color"] := by
    decide +kernel
  have hne : t.block.rule.dynamicEntries ≠ [] := fun e => by simp [e] at hkeys
  obtain ⟨-, -, -, hpatch⟩ := metadata_of_template t h .empty
  obtain ⟨patch, heval, hfst, hvalues⟩ := hpatch props hne
  rw [hkeys] at hfst
  refine ⟨h, hkeys, patch, heval, hfst, ?_, ?_⟩
  · obtain ⟨-, v, hv, hget⟩ := hvalues "borderWidth" (by rw [hfst]; decide)
    have hsource : (t.source? "borderWidth").map (·.evaluate props) = some (.num (.int 2)) := by
      decide +kernel
    rw [hget, ← hsource, hv, Option.map_some]
  · obtain ⟨-, v, hv, hget⟩ := hvalues "color" (by rw [hfst]; decide)
    have hsource : (t.source? "color").map (·.evaluate props) = some (.str "blue") := by
      decide +kernel
    rw [hget, ← hsource, hv, Option.map_some]

end TemplateStyles.LateTemplate
