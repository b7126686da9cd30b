import TemplateStyles.Proofs.Render.Overlays
import TemplateStyles.Render.Metadata
/-!
# Combined patches

The patch of a child is written over that of its parent property by property, before shorthands are
expanded. So the properties of the child count, but on a side of a box a more specific property of
the parent still comes before a shorthand of the child (`BoxFamily.Outranks`). Main result
`resolve_combinedPatch`: a combined patch resolves to the parent's patch overridden by the child's,
save on those sides, where the parent's value stays; `resolve_combinedPatch_lost` is a shorthand of
a child that does not reach a side.
-/
namespace TemplateStyles

open BoxFamily

namespace BoxFamily

/-- The properties that set a side. -/
def covers (side : BoxPart) : List BoxPart := [side, side.axis, .all]

/-- The first style sets the side by a property that is more specific than all those by which the
second style sets it. -/
def Outranks (f : BoxFamily) (first second : StyleObject) (side : BoxPart) : Prop :=
  ∃ part ∈ covers side, first.contains (f.key part) = true ∧
    ∀ other ∈ covers side, second.contains (f.key other) = true → other.rank < part.rank

instance (f : BoxFamily) (first second : StyleObject) (side : BoxPart) :
    Decidable (f.Outranks first second side) :=
  inferInstanceAs (Decidable (∃ part ∈ covers side, first.contains (f.key part) = true ∧
    ∀ other ∈ covers side, second.contains (f.key other) = true → other.rank < part.rank))

theorem rank_of_mem_sides {side : BoxPart} (hs : side ∈ BoxPart.all.sides) :
    side.rank = 2 ∧ side.axis.rank = 1 ∧ BoxPart.all.rank = 0 := by
  cases side <;> simp_all [BoxPart.sides, BoxPart.rank, BoxPart.axis]

section

variable {f : BoxFamily} {parent child : StyleObject} {side : BoxPart}

/-- A more specific property of the parent decides the side. -/
theorem Outranks.covering?_merge (h : f.Outranks parent child side)
    (hs : side ∈ BoxPart.all.sides) :
    f.covering? (parent.merge child) side = f.covering? parent side := by
  obtain ⟨hrank, hrank', hrank''⟩ := rank_of_mem_sides hs
  obtain ⟨part, hpart, hset, hless⟩ := h
  have hnone : ∀ other ∈ covers side, part.rank ≤ other.rank →
      child.get? (f.key other) = none := by
    intro other hother hle
    by_contra hsome
    exact absurd (hless other hother (Option.isSome_iff_ne_none.2 hsome)) (by omega)
  obtain ⟨v, hv⟩ := Option.isSome_iff_exists.1 hset
  simp only [covering?, inherited?, OrderedMap.get?_merge]
  simp only [covers, List.mem_cons, List.not_mem_nil, or_false] at hpart
  rcases hpart with rfl | rfl | rfl
  · rw [hnone part (by simp [covers]) (Nat.le_refl _), hv]
    rfl
  · rw [hnone side (by simp [covers]) (by omega),
      hnone side.axis (by simp [covers]) (Nat.le_refl _), hv]
    cases parent.get? (f.key side) <;> rfl
  · rw [hnone side (by simp [covers]) (by omega), hnone side.axis (by simp [covers]) (by omega),
      hnone .all (by simp [covers]) (Nat.le_refl _)]
    rfl

/-- Else the child's value counts, if it has one. -/
theorem covering?_merge_of_not_outranks (h : ¬ f.Outranks parent child side)
    (hs : side ∈ BoxPart.all.sides) :
    f.covering? (parent.merge child) side =
      (f.covering? child side).or (f.covering? parent side) := by
  obtain ⟨hrank, hrank', hrank''⟩ := rank_of_mem_sides hs
  -- whatever the parent has, the child has something at least as specific
  have hset : ∀ part ∈ covers side, parent.contains (f.key part) = true →
      ∃ other ∈ covers side, child.contains (f.key other) = true ∧ part.rank ≤ other.rank := by
    intro part hpart hparent
    by_contra hnone
    refine h ⟨part, hpart, hparent, fun other hother hchild => ?_⟩
    by_contra hless
    exact hnone ⟨other, hother, hchild, by omega⟩
  simp only [covers, OrderedMap.contains, List.mem_cons, List.not_mem_nil, or_false] at hset
  have hown : (parent.get? (f.key side)).isSome = true →
      (child.get? (f.key side)).isSome = true := by
    intro hparent
    obtain ⟨other, rfl | rfl | rfl, hchild, hle⟩ := hset side (.inl rfl) hparent
    · exact hchild
    · omega
    · omega
  have haxis : (parent.get? (f.key side.axis)).isSome = true →
      (child.get? (f.key side)).isSome = true ∨ (child.get? (f.key side.axis)).isSome = true := by
    intro hparent
    obtain ⟨other, rfl | rfl | rfl, hchild, hle⟩ := hset side.axis (.inr (.inl rfl)) hparent
    · exact .inl hchild
    · exact .inr hchild
    · omega
  simp only [covering?, inherited?, OrderedMap.get?_merge]
  cases hc : child.get? (f.key side) with
  | some v => rfl
  | none =>
    have hp : parent.get? (f.key side) = none := by
      simpa [hc] using hown
    cases hc' : child.get? (f.key side.axis) with
    | some v => rw [hp]; rfl
    | none =>
      have hp' : parent.get? (f.key side.axis) = none := by
        simpa [hc, hc'] using haxis
      rw [hp, hp']
      cases child.get? (f.key .all) <;> rfl

end

end BoxFamily

namespace SheetRegistry

variable (r : SheetRegistry)

/-- What a list resolves to that has a patch alone. -/
def resolvePatch (patch : StyleObject) : StyleObject :=
  r.resolve (styleList none [] (some patch) none)

/-! ## A patch alone -/

theorem resolvePatch_sameAs {patch : StyleObject} (h : patch.typed.HasNoNull) :
    (r.resolvePatch patch).SameAs patch.typed.expand := by
  have hentry : r.resolvePatch patch = r.resolve [.inlined patch.typed.expand] :=
    r.resolve_styleList_overlays none [] (some patch) none
  rw [hentry]
  refine (StyleObject.expand_sameAs_resolve r h.expand).symm.trans ?_
  rw [StyleObject.expand_expand]
  exact .refl _

theorem get?_resolvePatch_side {patch : StyleObject} (h : patch.typed.HasNoNull) (f : BoxFamily)
    {side : BoxPart} (hs : side ∈ BoxPart.all.sides) :
    (r.resolvePatch patch).get? (f.key side) = (f.covering? patch side).map Json.typed := by
  rw [r.resolvePatch_sameAs h, StyleObject.get?_expand_side _ f hs, covering?_typed]

theorem get?_resolvePatch_shorthand {patch : StyleObject} (h : patch.typed.HasNoNull)
    (f : BoxFamily) {part : BoxPart} (hp : part ∈ BoxPart.shorthands) :
    (r.resolvePatch patch).get? (f.key part) = none := by
  rw [r.resolvePatch_sameAs h, StyleObject.get?_expand_shorthand _ f hp]

theorem get?_resolvePatch_other {patch : StyleObject} (h : patch.typed.HasNoNull) {k : String}
    (hk : ∀ (f : BoxFamily) (part : BoxPart), k ≠ f.key part) :
    (r.resolvePatch patch).get? k = (patch.get? k).map Json.typed := by
  rw [r.resolvePatch_sameAs h, StyleObject.get?_expand_other _ hk, StyleObject.get?_typed]

theorem hasNoNull_typed_merge {parent child : StyleObject} (hparent : parent.typed.HasNoNull)
    (hchild : child.typed.HasNoNull) : (StyleObject.typed (parent.merge child)).HasNoNull := by
  refine StyleObject.hasNoNull_of_get? fun k => ?_
  rw [StyleObject.get?_typed, OrderedMap.get?_merge, Option.map_or, ← StyleObject.get?_typed,
    ← StyleObject.get?_typed, ne_eq, Option.or_eq_some_iff]
  rintro (h | ⟨-, h⟩)
  · exact hchild.get?_ne_null k h
  · exact hparent.get?_ne_null k h

/-! ## Two patches -/

/-- **What two patches give together.** Let a parent's and a child's patch function return objects
without `null` once their values are typed. The combined patch resolves to what the parent's patch
resolves to by itself, overridden key by key by what the child's resolves to by itself. Excepted are
the sides of a box that the parent sets by a more specific property than the child: they keep the
parent's value. -/
theorem resolve_combinedPatch (base derived : PatchFunction) (p : Props)
    {parent child : StyleObject} (hbase : base p = some parent) (hderived : derived p = some child)
    (hparent : parent.typed.HasNoNull) (hchild : child.typed.HasNoNull) :
    let combined := (combinePatches (some base) (some derived)).bind (· p)
    let resolved := r.resolve (styleList none [] combined none)
    (∀ k, (∀ (f : BoxFamily), ∀ side ∈ BoxPart.all.sides, f.Outranks parent child side →
        k ≠ f.key side) →
      resolved.get? k = ((r.resolvePatch parent).merge (r.resolvePatch child)).get? k) ∧
    ∀ (f : BoxFamily), ∀ side ∈ BoxPart.all.sides, f.Outranks parent child side →
      resolved.get? (f.key side) = (r.resolvePatch parent).get? (f.key side) := by
  intro combined resolved
  have hcombined : combined = some (parent.merge child) := by
    simp only [combined, combinePatches, Option.bind_some, hbase, hderived, mergePatches]
  have hresolved : resolved = r.resolvePatch (parent.merge child) := by
    simp only [resolved, hcombined, resolvePatch]
  have hmerged := hasNoNull_typed_merge hparent hchild
  rw [hresolved]
  refine ⟨fun k hkept => ?_, fun f side hs houtranks => ?_⟩
  · rw [OrderedMap.get?_merge]
    rcases name_cases k with ⟨f, side, hs, rfl⟩ | ⟨f, part, hp, rfl⟩ | hk
    · have hnot : ¬ f.Outranks parent child side := fun h => hkept f side hs h rfl
      rw [r.get?_resolvePatch_side hmerged f hs, r.get?_resolvePatch_side hparent f hs,
        r.get?_resolvePatch_side hchild f hs, covering?_merge_of_not_outranks hnot hs,
        Option.map_or]
    · rw [r.get?_resolvePatch_shorthand hmerged f hp, r.get?_resolvePatch_shorthand hparent f hp,
        r.get?_resolvePatch_shorthand hchild f hp, Option.or_none]
    · rw [r.get?_resolvePatch_other hmerged hk, r.get?_resolvePatch_other hparent hk,
        r.get?_resolvePatch_other hchild hk, OrderedMap.get?_merge, Option.map_or]
  · rw [r.get?_resolvePatch_side hmerged f hs, r.get?_resolvePatch_side hparent f hs,
      houtranks.covering?_merge hs]

/-- A child's axis against a parent's whole box, and a parent's side against the same axis. -/
theorem resolve_combinedPatch_axis :
    let parent : StyleObject := .ofList
      [("margin", .str "2px"), ("marginLeft", .num (.int 8)), ("color", .str "red")]
    let child : StyleObject := .ofList [("marginHorizontal", .str "4px")]
    let combined := (combinePatches (some fun _ => some parent) (some fun _ => some child)).bind
      (· .empty)
    let resolved := empty.resolve (styleList none [] combined none)
    parent.typed.HasNoNull ∧ child.typed.HasNoNull ∧
      resolved.get? "color" = some (.str "red") ∧
      resolved.get? "marginRight" = some (.num (.int 4)) ∧
      resolved.get? "marginLeft" = some (.num (.int 8)) := by
  intro parent child combined resolved
  have hparent : parent.typed.HasNoNull := by decide +kernel
  have hchild : child.typed.HasNoNull := by decide +kernel
  obtain ⟨hkept, houtranked⟩ := resolve_combinedPatch empty (fun _ => some parent)
    (fun _ => some child) .empty rfl rfl hparent hchild
  have hcolor : ∀ (f : BoxFamily) (side : BoxPart), "color" ≠ f.key side := by
    intro f side
    cases f <;> cases side <;> decide
  have hright : ¬ margin.Outranks parent child .right := by decide +kernel
  refine ⟨hparent, hchild, ?_, ?_, ?_⟩
  · exact (hkept "color" fun f side _ _ => hcolor f side).trans (by decide +kernel)
  · refine (hkept (margin.key .right) fun f side _ h hkey => ?_).trans (by decide +kernel)
    obtain ⟨rfl, rfl⟩ := key_inj hkey
    exact hright h
  · exact (houtranked .margin .left (by decide) (by decide +kernel)).trans (by decide +kernel)

/-- The parent sets the left side and the child the whole box, which does not reach the left. -/
theorem resolve_combinedPatch_lost :
    let parent : StyleObject := .ofList [("paddingLeft", .num (.int 10))]
    let child : StyleObject := .ofList [("padding", .num (.int 5))]
    let combined := (combinePatches (some fun _ => some parent) (some fun _ => some child)).bind
      (· .empty)
    let resolved := empty.resolve (styleList none [] combined none)
    let overridden := (empty.resolvePatch parent).merge (empty.resolvePatch child)
    parent.typed.HasNoNull ∧ child.typed.HasNoNull ∧
      resolved.get? "paddingLeft" = some (.num (.int 10)) ∧
      overridden.get? "paddingLeft" = some (.num (.int 5)) ∧ ¬ resolved.SameAs overridden := by
  intro parent child combined resolved overridden
  have hresolved : resolved.get? "paddingLeft" = some (.num (.int 10)) := by decide +kernel
  have hoverridden : overridden.get? "paddingLeft" = some (.num (.int 5)) := by decide +kernel
  refine ⟨by decide +kernel, by decide +kernel, hresolved, hoverridden, fun hsame => ?_⟩
  have hleft := hsame "paddingLeft"
  rw [hresolved, hoverridden] at hleft
  exact absurd hleft (by decide)

end SheetRegistry

end TemplateStyles
