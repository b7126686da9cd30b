import TemplateStyles.Proofs.Render.CssDeclaration
import TemplateStyles.Proofs.Render.Expansion
/-!
# Css blocks with and without compilation

`CssSite` fills the texts of a block in and reads the result; `CssStyle` reads the block with
markers, registers one part of it and evaluates the other. Main result
`resolve_style_sameAs_evaluate`: both resolve to the same style, although a property may be
declared on either side and more than once, and the values are typed at different times.
-/
namespace TemplateStyles

theorem CssResult.entries_ofEntries (list : List StyleEntry) : (ofEntries list).entries = list := by
  cases list with
  | nil => rfl
  | cons e rest => cases rest <;> rfl

/-- A style that is evaluated for the first time: the registered styles, then the patch. -/
theorem CssStyle.entries_evaluate_ofMetadata (m : Metadata) :
    (ofMetadata m).evaluate.1.entries =
      m.staticStyles.getD [] ++ patchEntries (m.evaluatePatch .empty) := by
  have hmetadata : (ofMetadata m).metadata = m := rfl
  rw [evaluate, hmetadata]
  cases hpatch : m.evaluatePatch .empty with
  | none => simp [patchEntries, CssResult.entries_ofEntries]
  | some patch =>
    cases hempty : patch.isEmpty with
    | true => simp [patchEntries, Option.filter, hempty, CssResult.entries_ofEntries]
    | false =>
      have hprepare : ((ofMetadata m).prepare patch).1 = patch.prepared := rfl
      simp only [Option.filter, hempty, Bool.not_false, if_true, patchEntries,
        CssResult.entries_ofEntries, hprepare]
      rfl

/-! ## What the two parts of a list give -/

namespace SheetRegistry

/-- A patch without shorthands gives its own values, typed. -/
theorem get?_flatten_patchEntries (r : SheetRegistry) {patch : StyleObject}
    (h : ∀ k ∈ patch.keys, k ∉ BoxShorthand.inFragments) (k : String) :
    (r.flatten (patchEntries (some patch))).get? k =
      ((patch.get? k).map Json.typed).filter (· ≠ .null) := by
  rw [patchEntries]
  split
  · rename_i hempty
    have hentries : patch.entries = [] := List.isEmpty_iff.1 hempty
    rw [flatten_nil, OrderedMap.get?_empty, OrderedMap.get?, hentries]
    rfl
  · have htyped : StyleObject.expand patch.typed = patch.typed :=
      StyleObject.expand_of_keys (by rw [StyleObject.keys_typed]; exact h)
    rw [htyped, r.get?_flatten_of_style? rfl, StyleObject.typed, OrderedMap.get?_mapValues]

/-- A style that was just registered has its own values. -/
theorem get?_flatten_registered {r after : SheetRegistry} {style : StyleObject}
    (h : after.styles = r.styles ++ [style]) (k : String) :
    (after.flatten [.registered (r.size + 1)]).get? k = (style.get? k).filter (· ≠ .null) := by
  have hstyle : after.style? (.registered (r.size + 1)) = some style := by
    rw [style?, get?, if_neg (by omega), h, Nat.add_sub_cancel, size, List.getElem?_append_right
      (Nat.le_refl _), Nat.sub_self, List.getElem?_cons_zero]
  exact after.get?_flatten_of_style? hstyle k

end SheetRegistry

namespace LateTemplate

variable {t : LateTemplate}

/-- The registered part of a template's style list. -/
theorem get?_flatten_staticStyles (t : LateTemplate) (r : SheetRegistry) (k : String) :
    ((t.metadata r).2.flatten ((t.metadata r).1.staticStyles.getD [])).get? k =
      ((t.block.rule.static.get? k).map StyleValue.toJson).filter (· ≠ .null) := by
  have hstyles := t.styles_metadata r
  rw [t.staticStyles_metadata r]
  by_cases hempty : t.block.rule.static.isEmpty = true
  · have hentries : t.block.rule.static.entries = [] := List.isEmpty_iff.1 hempty
    rw [if_pos hempty, SheetRegistry.flatten_nil, OrderedMap.get?_empty, OrderedMap.get?, hentries]
    rfl
  · rw [if_neg hempty] at hstyles ⊢
    rw [SheetRegistry.get?_flatten_registered hstyles, StyleMap.toJson, OrderedMap.get?_mapValues]

/-- The evaluated part of a template's style list, if no shorthand is evaluated. -/
theorem get?_flatten_patch (t : LateTemplate) (r : SheetRegistry)
    (h : ∀ e ∈ t.block.rule.dynamicEntries, e.1 ∉ BoxShorthand.inFragments) (props : Props)
    (k : String) :
    ((t.metadata r).2.flatten (patchEntries ((t.metadata r).1.evaluatePatch props))).get? k =
      ((Entries.find? k t.block.rule.dynamicEntries).bind fun v =>
        (v.source? t.values).map fun i => (i.evaluate props).typed).filter (· ≠ .null) := by
  have hpatch : ((Entries.find? k t.block.rule.dynamicEntries).bind fun v =>
      (v.source? t.values).map fun i => (i.evaluate props).typed) =
        ((t.block.rule.patch t.values props).get? k).map Json.typed := by
    rw [StyleRule.get?_patch t.partitioned_rule, Option.map_map, Option.map_bind]
    rfl
  rw [hpatch, Metadata.evaluatePatch, patch_metadata]
  by_cases hroutes : t.block.rule.routes t.values = []
  · rw [if_pos hroutes, StyleRule.patch, hroutes]
    rfl
  · have hkeys : ∀ k ∈ (t.block.rule.patch t.values props).keys,
        k ∉ BoxShorthand.inFragments := by
      intro k hk
      rw [StyleRule.keys_patch t.partitioned_rule] at hk
      obtain ⟨e, he, rfl⟩ :=
        List.mem_map.1 ((t.block.rule.map_fst_routes_sublist t.values).subset hk)
      exact h e he
    rw [if_neg hroutes, Option.bind_some, SheetRegistry.get?_flatten_patchEntries _ hkeys]

end LateTemplate

namespace CssDeclaration

variable {ds : List CssDeclaration}

/-! ## Both ways -/

theorem declarations_join (ds : List CssDeclaration) :
    Marker.join (template ds).parts (template ds).values.length = row (marked 0 ds) := by
  have hjoin : Marker.joinFrom (template ds).values.length 0 (partsFrom "" ds) =
      "" ++ row (marked 0 ds) := joinFrom_partsFrom ds "" (by simp [template])
  rw [String.empty_append] at hjoin
  exact hjoin

theorem rule_template (ds : List CssDeclaration) : (template ds).block.rule =
    StyleRule.ofWrites ((Block.declarations (row (marked 0 ds))).map Declaration.write) := by
  rw [LateTemplate.block, declarations_join, Block.rule_ofText]

theorem get?_style (ds : List CssDeclaration) (k : String) :
    (CssSite.style (parts ds) ((texts ds).map .str)).get? k =
      ((StyleRule.ofWrites ((Block.declarations (row (filled ds))).map
        Declaration.write)).static.get? k).map StyleValue.toJson := by
  have hfill := fillIn_partsFrom ds ""
  rw [String.empty_append] at hfill
  rw [CssSite.style, CssSite.block, parts, hfill, Block.rule_ofText, StyleMap.toJson,
    OrderedMap.get?_mapValues]

/-- No shorthand is evaluated. -/
theorem dynamicEntries_not_shorthand (h : ∀ d ∈ ds, d.Admissible) :
    ∀ e ∈ (template ds).block.rule.dynamicEntries, e.1 ∉ BoxShorthand.inFragments := by
  intro e he
  rw [rule_template] at he
  obtain ⟨w, hw, hevaluated⟩ := StyleRule.mem_evaluated_of_mem he
  obtain ⟨d, hd, rfl⟩ := List.mem_map.1 hw
  obtain ⟨-, hentry⟩ := Declaration.mem_write_evaluated hevaluated
  simp only [hentry]
  exact canonical_of_mem_marked h hd

/-- **Reading at each use and compiling agree.** The style of a block that is filled in with its
texts and read resolves to the same properties as the block that is read with markers, registered
and evaluated. The number of texts has to fit in a machine word. -/
theorem resolve_style_sameAs_evaluate (ds : List CssDeclaration) (h : ∀ d ∈ ds, d.Admissible)
    (hcount : (texts ds).length ≤ UInt64.size) (r : SheetRegistry) :
    let m := ((template ds).metadata r).1
    let after := ((template ds).metadata r).2
    (after.resolve [.inlined (CssSite.style (parts ds) ((texts ds).map .str))]).SameAs
      (after.resolve (CssStyle.ofMetadata m).evaluate.1.entries) := by
  intro m after
  refine SheetRegistry.resolve_sameAs fun k => ?_
  have hagrees := StyleRule.agrees_ofWrites (filledBy_declarations h hcount) k
  rw [← rule_template, StyleRule.value?] at hagrees
  rw [after.get?_flatten_of_style? (e := .inlined _) rfl, get?_style, ← hagrees,
    CssStyle.entries_evaluate_ofMetadata, SheetRegistry.get?_flatten_append,
    LateTemplate.get?_flatten_staticStyles,
    LateTemplate.get?_flatten_patch _ _ (dynamicEntries_not_shorthand h)]
  have hfill : (fun v : StyleValue => (v.source? (template ds).values).map fun i =>
      (i.evaluate .empty).typed) = fill (texts ds) := rfl
  rw [hfill]
  cases hfind : Entries.find? k (template ds).block.rule.dynamicEntries with
  | none => simp
  | some v =>
    -- a property that is evaluated is not registered as well
    have hstatic : (template ds).block.rule.static.get? k = none :=
      (template ds).partitioned_rule.disjoint (k, v) (Entries.mem_of_find? hfind)
    simp [hstatic]

/-- Properties that are declared again, with a value of the other kind. -/
theorem resolve_style_sameAs_evaluate_redeclared :
    let ds : List CssDeclaration :=
      [⟨"color", "red", false⟩, ⟨"width", " 10px ", true⟩, ⟨" color", "tomato", true⟩,
        ⟨"margin-top", "2", false⟩, ⟨"width", "5", false⟩]
    let after := ((template ds).metadata .empty).2
    let resolved :=
      after.resolve (CssStyle.ofMetadata ((template ds).metadata .empty).1).evaluate.1.entries
    (∀ d ∈ ds, d.Admissible) ∧ (texts ds).length ≤ UInt64.size ∧
      resolved.get? "color" = some (.str "tomato") ∧ resolved.get? "width" = some (.num (.int 5)) ∧
      resolved.get? "marginTop" = some (.num (.int 2)) := by
  intro ds after resolved
  have h : ∀ d ∈ ds, d.Admissible := by decide +kernel
  have hcount : (texts ds).length ≤ UInt64.size := by decide +kernel
  have hsame := resolve_style_sameAs_evaluate ds h hcount .empty
  exact ⟨h, hcount, (hsame "color").symm.trans (by decide +kernel),
    (hsame "width").symm.trans (by decide +kernel),
    (hsame "marginTop").symm.trans (by decide +kernel)⟩

end CssDeclaration

end TemplateStyles
