import TemplateStyles.Proofs.Render.Resolution
import TemplateStyles.Proofs.Sheet.Emission
import TemplateStyles.Render.Element
import TemplateStyles.Render.LateTemplate
/-!
# Inherited styles

Every block registers its fixed style under the same name, and inheritance merges the registered
styles by name. So however long a chain of styled components is, its metadata name at most one
style, that of the last block that has one (`Names.merge`). Main result `resolve_inherited_iff`:
what a child inherits from its base is kept just if the child's block is empty or sets everything
that the base sets; `resolve_inherited_lost` is a base whose style is lost.
-/
namespace TemplateStyles

namespace Metadata

/-! ## Metadata of blocks without evaluated properties -/

/-- The metadata of a block, registered with `r`, and the registry after that. -/
def ofBlock (css : String) (values : List Interpolation) (c : SheetCounter) (r : SheetRegistry) :
    Metadata × SheetRegistry :=
  ofInstructions (emit (Block.ofText css).rule values.length c).instructions values r

/-- Metadata of blocks that are all fixed, each inheriting from those below it. -/
inductive FromBlocks : Metadata → Prop where
  | block (css : String) (values : List Interpolation) (c : SheetCounter) (r : SheetRegistry)
    (h : (Block.ofText css).rule.dynamicEntries = []) : FromBlocks (ofBlock css values c r).1
  | inherited {base child : Metadata} (hbase : FromBlocks base) (hchild : FromBlocks child) :
    FromBlocks (base.merge child)

/-- Nothing is evaluated, and the metadata name the style with the number `id` and no other. -/
structure Names (m : Metadata) (id : Option Nat) : Prop where
  patch : m.patch = none
  attrs : m.attrs = none
  compiled : m.compiled = id.map fun i => .ofList [(baseKey, i)]
  keys : ∃ n, m.keys = id.map fun _ => List.replicate (n + 1) baseKey

/-- The number of the style that a block registers. -/
def blockId (css : String) (r : SheetRegistry) : Option Nat :=
  if (Block.ofText css).rule.static.isEmpty then none else some (r.size + 1)

theorem names_ofBlock {css : String} (h : (Block.ofText css).rule.dynamicEntries = [])
    (values : List Interpolation) (c : SheetCounter) (r : SheetRegistry) :
    (ofBlock css values c r).1.Names (blockId css r) := by
  have hmisplaced := Block.misplaced_ofText css
  have hpatch : (ofBlock css values c r).1.patch = none := by
    rw [ofBlock, patch_ofInstructions_emit hmisplaced, if_pos]
    rw [StyleRule.routes, h, List.filterMap_nil]
  refine ⟨hpatch, ?_, ?_, 0, ?_⟩ <;>
    rw [ofBlock, ofInstructions, StyleRule.registration_emit hmisplaced, registration?] <;>
    by_cases hempty : (Block.ofText css).rule.static.isEmpty = true <;>
    simp only [hempty, blockId] <;> rfl

/-- The style of the child replaces that of the base, which has the same name. -/
theorem Names.merge {base child : Metadata} {i j : Option Nat} (hbase : base.Names i)
    (hchild : child.Names j) : (base.merge child).Names (j.or i) := by
  obtain ⟨n, hn⟩ := hbase.keys
  obtain ⟨k, hk⟩ := hchild.keys
  refine ⟨?_, ?_, ?_, ?_⟩
  · rw [Metadata.merge, hbase.patch, hchild.patch]; rfl
  · rw [Metadata.merge, hbase.attrs, hchild.attrs]; rfl
  · rw [Metadata.merge, hbase.compiled, hchild.compiled]
    cases i with
    | none => cases j <;> rfl
    | some i =>
      cases j with
      | none => rfl
      | some j =>
        refine congrArg some (OrderedMap.ext_entries ?_)
        simp [OrderedMap.merge, OrderedMap.insertAll, OrderedMap.ofList, OrderedMap.insert,
          OrderedMap.empty, Entries.put]
  · rw [Metadata.merge, hn, hk]
    cases i with
    | none => exact ⟨k, by cases j <;> rfl⟩
    | some i =>
      cases j with
      | none => exact ⟨n, rfl⟩
      | some j =>
        refine ⟨n + (k + 1), congrArg some ?_⟩
        rw [List.replicate_append_replicate]
        congr 1
        omega

theorem FromBlocks.exists_names {m : Metadata} (h : m.FromBlocks) : ∃ id, m.Names id := by
  induction h with
  | block css values c r hfixed => exact ⟨_, names_ofBlock hfixed values c r⟩
  | inherited _ _ ihbase ihchild =>
    obtain ⟨i, hi⟩ := ihbase
    obtain ⟨j, hj⟩ := ihchild
    exact ⟨j.or i, hi.merge hj⟩

end Metadata

namespace SheetRegistry

/-! ## What one style resolves to -/

/-- The style with a number, resolved by itself. -/
def resolveId (r : SheetRegistry) (id : Option Nat) : StyleObject :=
  r.resolve (id.map .registered).toList

theorem resolve_nil (r : SheetRegistry) : r.resolve [] = .empty := by
  rw [resolve, flatten_nil]
  decide

/-- An entry that is repeated counts as one. -/
theorem get?_flatten_replicate (r : SheetRegistry) (e : StyleEntry) (n : Nat) (k : String) :
    (r.flatten (List.replicate (n + 1) e)).get? k = (r.flatten [e]).get? k := by
  induction n with
  | zero => rfl
  | succ n ih => rw [List.replicate_succ', get?_flatten_append, ih, Option.or_self]

/-- A list of metadata that name one style resolves to this style. -/
theorem resolve_staticStyles (r : SheetRegistry) {m : Metadata} {id : Option Nat}
    (h : m.Names id) : (r.resolve (m.staticStyles.getD [])).SameAs (r.resolveId id) := by
  obtain ⟨n, hn⟩ := h.keys
  cases id with
  | none =>
    have hstatic : m.staticStyles = none := if_pos (.inl (by rw [h.compiled]; rfl))
    rw [hstatic]
    exact .refl _
  | some i =>
    have hkeys : m.styleKeys = List.replicate (n + 1) baseKey := by
      rw [Metadata.styleKeys, hn]; rfl
    have hget : (OrderedMap.ofList [(baseKey, i)]).get? baseKey = some i := by
      rw [OrderedMap.get?_ofList]
      simp [Entries.find?]
    have hstatic : m.staticStyles = some (List.replicate (n + 1) (.registered i)) := by
      rw [Metadata.staticStyles, if_neg (by simp [h.compiled, hkeys]), hkeys, h.compiled,
        Option.map_some, staticEntries, List.filterMap_replicate_of_some hget,
        List.map_replicate]
    rw [hstatic]
    exact resolve_sameAs fun k => r.get?_flatten_replicate _ n k

end SheetRegistry

namespace StyledComponent

/-! ## Rendering what is inherited -/

/-- What a styled component shows of itself is what others inherit. -/
theorem metadata_component (c : StyledComponent) : c.component.metadata = c.metadata? := rfl

theorem merged_of_metadata? {base : StyledComponent} {m : Metadata} (h : base.metadata? = some m) :
    base.merged = m := by
  unfold metadata? at h
  split at h
  · simp at h
  · exact Option.some.inj h

/-- A child has the metadata of its base with its own over them. -/
theorem merged_of_base {base : StyledComponent} {m : Metadata} (h : base.metadata? = some m)
    (own : Metadata) : (StyledComponent.mk base.component own).merged = m.merge own := by
  rw [merged, metadata_component, h]
  rfl

/-- A component whose metadata name a style renders with it, unless the caller passes another. -/
theorem render_of_names {c : StyledComponent} {id : Option Nat} (h : c.merged.Names id)
    {p : Props} (hp : p.get? Props.styleName = none) (theme : Option Theme) :
    c.render p theme = .ok (c.renderFixed p) := by
  have hfixed : c.isFixed p = true := by simp [isFixed, hasExternalStyle, h.patch, h.attrs, hp]
  unfold render
  rw [if_pos hfixed]

/-- **When an inherited style is kept.** A child of a component with fixed styles renders without
fail. Its style is that of the base, overridden key by key by the style of its own block, just if
the block has no fixed properties or sets every property that the base sets; otherwise the style of
the base is lost. -/
theorem resolve_inherited_iff {base : StyledComponent} {m : Metadata}
    (hbase : base.metadata? = some m) (hm : m.FromBlocks) (css : String)
    (hfixed : (Block.ofText css).rule.dynamicEntries = []) (values : List Interpolation)
    (c : SheetCounter) (r : SheetRegistry) {p : Props} (hp : p.get? Props.styleName = none)
    (theme : Option Theme) :
    let own := Metadata.ofBlock css values c r
    let child : StyledComponent := ⟨base.component, own.1⟩
    let styleOf := fun list : Option (List StyleEntry) => own.2.resolve (list.getD [])
    ∃ inherited rendered, base.render p theme = .ok inherited ∧
      child.render p theme = .ok rendered ∧
      ((styleOf rendered.style).SameAs
          ((styleOf inherited.style).merge (styleOf own.1.staticStyles)) ↔
        (Block.ofText css).rule.static.isEmpty = true ∨
          ∀ k, (styleOf own.1.staticStyles).get? k = none →
            (styleOf inherited.style).get? k = none) := by
  intro own child styleOf
  obtain ⟨i, hi⟩ := hm.exists_names
  have hown : own.1.Names (Metadata.blockId css r) := Metadata.names_ofBlock hfixed values c r
  have hbelow : base.merged.Names i := by rw [merged_of_metadata? hbase]; exact hi
  have hchild : child.merged.Names ((Metadata.blockId css r).or i) := by
    rw [merged_of_base hbase]
    exact hi.merge hown
  refine ⟨_, _, render_of_names hbelow hp theme, render_of_names hchild hp theme, ?_⟩
  -- all three lists are seen through the one style that they name
  have hinherited := own.2.resolve_staticStyles hbelow
  have hrendered := own.2.resolve_staticStyles hchild
  have hself := own.2.resolve_staticStyles hown
  have hmerge : ∀ k, ((styleOf base.merged.staticStyles).merge
      (styleOf own.1.staticStyles)).get? k =
        ((own.2.resolveId (Metadata.blockId css r)).get? k).or ((own.2.resolveId i).get? k) := by
    intro k
    rw [OrderedMap.get?_merge, hself k, hinherited k]
  have hsame : (styleOf child.merged.staticStyles).SameAs
      ((styleOf base.merged.staticStyles).merge (styleOf own.1.staticStyles)) ↔
        ∀ k, (own.2.resolveId ((Metadata.blockId css r).or i)).get? k =
          ((own.2.resolveId (Metadata.blockId css r)).get? k).or ((own.2.resolveId i).get? k) :=
    forall_congr' fun k => by rw [hrendered k, hmerge k]
  refine hsame.trans ?_
  by_cases hempty : (Block.ofText css).rule.static.isEmpty = true
  · -- nothing is registered for the child, so the style of the base keeps its name
    have hnone : Metadata.blockId css r = none := if_pos hempty
    simp [hempty, hnone, SheetRegistry.resolveId, SheetRegistry.resolve_nil]
  · have hsome : Metadata.blockId css r = some (r.size + 1) := if_neg hempty
    have hlost : (∀ k, (styleOf own.1.staticStyles).get? k = none →
        (styleOf base.merged.staticStyles).get? k = none) ↔
          ∀ k, (own.2.resolveId (some (r.size + 1))).get? k = none →
            (own.2.resolveId i).get? k = none :=
      forall_congr' fun k => by rw [hself k, hinherited k, hsome]
    rw [or_iff_right hempty, renderFixed, hlost, hsome, Option.some_or]
    refine forall_congr' fun k => ?_
    cases (own.2.resolveId (some (r.size + 1))).get? k <;> simp [eq_comm]

/-- A block that sets all that two blocks below it set loses nothing. -/
theorem resolve_inherited_iff_redeclared :
    let lower := Metadata.ofBlock "color: red; flex: 1" [] .start .empty
    let upper := Metadata.ofBlock "color: blue; opacity: 0.5" [] .start lower.2
    let base : StyledComponent := ⟨.styled (.host "View") lower.1, upper.1⟩
    let own := Metadata.ofBlock "opacity: 1; color: teal; top: 4px" [] .start upper.2
    let child : StyledComponent := ⟨base.component, own.1⟩
    base.metadata? = some (lower.1.merge upper.1) ∧ (lower.1.merge upper.1).FromBlocks ∧
      (Block.ofText "opacity: 1; color: teal; top: 4px").rule.dynamicEntries = [] ∧
      ∃ inherited rendered, base.render .empty none = .ok inherited ∧
        child.render .empty none = .ok rendered ∧
        (own.2.resolve (rendered.style.getD [])).SameAs
          ((own.2.resolve (inherited.style.getD [])).merge
            (own.2.resolve (own.1.staticStyles.getD []))) := by
  intro lower upper base own child
  have hm : (lower.1.merge upper.1).FromBlocks :=
    .inherited (.block _ _ _ _ (by decide +kernel)) (.block _ _ _ _ (by decide +kernel))
  have hfixed : (Block.ofText "opacity: 1; color: teal; top: 4px").rule.dynamicEntries = [] := by
    decide +kernel
  have hmetadata : base.metadata? = some (lower.1.merge upper.1) := rfl
  obtain ⟨inherited, rendered, hbase, hchild, hiff⟩ := resolve_inherited_iff hmetadata hm
    "opacity: 1; color: teal; top: 4px" hfixed [] .start upper.2 (p := .empty) rfl none
  have hinherited : inherited = base.renderFixed .empty := (Except.ok.inj hbase).symm
  have hset : ((own.2.resolve ((base.renderFixed .empty).style.getD [])).keys ⊆
      (own.2.resolve (own.1.staticStyles.getD [])).keys) := by decide +kernel
  refine ⟨hmetadata, hm, hfixed, inherited, rendered, hbase, hchild, hiff.2 (.inr fun k hk => ?_)⟩
  rw [OrderedMap.get?_eq_none_iff] at hk ⊢
  rw [hinherited]
  exact fun h => hk (hset h)

/-- A child that sets one property loses both properties of its base. -/
theorem resolve_inherited_lost :
    let factory := StyledFactory.ofComponent (.host "View")
    let base := factory.ofTemplate ⟨["color: red; flex: 1"], []⟩ .empty
    let child := (StyledFactory.ofComponent base.1.component).ofTemplate ⟨["opacity: 0.5"], []⟩
      base.2
    let keysOf := fun rendered : Except ThemeError Element =>
      rendered.toOption.map fun e => (child.2.resolve (e.style.getD [])).keys
    keysOf (base.1.render .empty none) = some ["color", "flex"] ∧
      keysOf (child.1.render .empty none) = some ["opacity"] := by
  decide +kernel

end StyledComponent

end TemplateStyles
