import TemplateStyles.Proofs.Render.Expansion
/-!
# Override priority

A style list is the registered styles, the patch of the render and the objects of the caller's
style, in this order. Main result `resolve_styleList_sameAs_overridden`: each of them overrides
what stands before it key by key, also where a shorthand meets a side that is registered.
-/
namespace TemplateStyles

open BoxFamily

/-! ## The caller's style -/

mutual

/-- The values of a caller's style outside of lists, from left to right. -/
def Json.leaves : Json → List Json
  | .arr items => Json.leavesAmong items
  | .obj members => [.obj members]
  | .num n => [.num n]
  | .str s => [.str s]
  | .bool b => [.bool b]
  | .null => [.null]

def Json.leavesAmong : List Json → List Json
  | [] => []
  | x :: r => Json.leaves x ++ Json.leavesAmong r

end

/-- The inline styles of a caller's style. -/
def Json.styleObjects (v : Json) : List StyleObject := v.leaves.filterMap Json.toMap?

/-- The registered style that a value names by its number. -/
def SheetRegistry.named? (r : SheetRegistry) : Json → Option StyleObject
  | .num (.int n) => if 0 ≤ n ∧ n ≤ maxStyleId then r.get? n.toNat else none
  | _ => none

/-- What stands in a style list behind the registered styles: the patch with typed values, then the
caller's inline styles. -/
def fragments (patch : Option StyleObject) (external : Option Json) : List StyleObject :=
  (patch.map StyleObject.typed).toList ++ (external.map Json.styleObjects).getD []

namespace SheetRegistry

/-- A style overridden by what each fragment resolves to by itself, the last one on top. -/
def overridden (r : SheetRegistry) (base : StyleObject) (fragments : List StyleObject) :
    StyleObject :=
  fragments.foldl (fun style fragment => style.merge (r.resolve [.inlined fragment])) base

theorem overridden_nil (r : SheetRegistry) (base : StyleObject) : r.overridden base [] = base := by
  rw [overridden, List.foldl_nil]

theorem overridden_append_singleton (r : SheetRegistry) (base last : StyleObject)
    (frags : List StyleObject) : r.overridden base (frags ++ [last]) =
      (r.overridden base frags).merge (r.resolve [.inlined last]) := by
  rw [overridden, List.foldl_append, List.foldl_cons, List.foldl_nil, overridden]

/-! ## The entries of a list -/

mutual

theorem externalEntries_eq_leaves : ∀ v : Json, externalEntries v = v.leaves.flatMap externalEntries
  | .arr items => by simp only [externalEntries, Json.leaves, externalItems_eq_leaves items]
  | .obj members => by simp [Json.leaves]
  | .num n => by simp [Json.leaves]
  | .str s => by simp [Json.leaves]
  | .bool b => by simp [Json.leaves]
  | .null => by simp [Json.leaves]

theorem externalItems_eq_leaves : ∀ items : List Json,
    externalItems items = (Json.leavesAmong items).flatMap externalEntries
  | [] => rfl
  | x :: r => by
    rw [externalItems, Json.leavesAmong, List.flatMap_append, ← externalEntries_eq_leaves x,
      ← externalItems_eq_leaves r]

end

mutual

theorem leaves_isLeaf : ∀ (v : Json), ∀ leaf ∈ v.leaves, ∀ items, leaf ≠ .arr items
  | .arr items => by simpa only [Json.leaves] using leavesAmong_isLeaf items
  | .obj members => by simp [Json.leaves]
  | .num n => by simp [Json.leaves]
  | .str s => by simp [Json.leaves]
  | .bool b => by simp [Json.leaves]
  | .null => by simp [Json.leaves]

theorem leavesAmong_isLeaf : ∀ (l : List Json), ∀ leaf ∈ Json.leavesAmong l,
    ∀ items, leaf ≠ .arr items
  | [] => by simp [Json.leavesAmong]
  | x :: r => by
    intro leaf h
    rw [Json.leavesAmong, List.mem_append] at h
    exact h.elim (leaves_isLeaf x leaf) (leavesAmong_isLeaf r leaf)

end

/-- What one value outside of lists adds to a style list. -/
theorem styles_of_leaf (r : SheetRegistry) {leaf : Json} (hleaf : ∀ items, leaf ≠ .arr items)
    (hname : r.named? leaf = none) :
    (externalEntries leaf).filterMap r.style? = (leaf.toMap?.map StyleObject.expand).toList := by
  cases leaf with
  | arr items => exact absurd rfl (hleaf items)
  | obj members => simp [externalEntries, style?, Json.toMap?]
  | num n =>
    cases n with
    | int n =>
      simp only [named?] at hname
      by_cases hn : 0 ≤ n ∧ n ≤ maxStyleId
      · rw [if_pos hn] at hname
        simp [externalEntries, hn, style?, hname, Json.toMap?]
      · simp [externalEntries, hn, Json.toMap?]
    | double negative m => simp [externalEntries, Json.toMap?]
  | str s => simp [externalEntries, Json.toMap?]
  | bool b => simp [externalEntries, Json.toMap?]
  | null => simp [externalEntries, Json.toMap?]

theorem styles_of_leaves (r : SheetRegistry) : ∀ l : List Json,
    (∀ leaf ∈ l, ∀ items, leaf ≠ .arr items) → (∀ leaf ∈ l, r.named? leaf = none) →
      (l.flatMap externalEntries).filterMap r.style? =
        (l.filterMap Json.toMap?).map StyleObject.expand
  | [], _, _ => rfl
  | leaf :: l, hleaf, hname => by
    rw [List.flatMap_cons, List.filterMap_append,
      styles_of_leaf r (hleaf leaf (List.mem_cons_self ..)) (hname leaf (List.mem_cons_self ..)),
      styles_of_leaves r l (fun x hx => hleaf x (List.mem_cons_of_mem _ hx))
        (fun x hx => hname x (List.mem_cons_of_mem _ hx))]
    cases hm : leaf.toMap? <;> simp [hm]

theorem styles_of_external (r : SheetRegistry) {v : Json}
    (h : ∀ leaf ∈ v.leaves, r.named? leaf = none) :
    (externalEntries v).filterMap r.style? = v.styleObjects.map StyleObject.expand := by
  rw [externalEntries_eq_leaves]
  exact styles_of_leaves r v.leaves (leaves_isLeaf v) h

theorem styles_of_inlined (r : SheetRegistry) (l : List StyleObject) :
    (l.map fun s : StyleObject => StyleEntry.inlined s.expand).filterMap r.style? =
      l.map StyleObject.expand := by
  rw [List.filterMap_map]
  exact congrFun List.filterMap_eq_map l

/-- A patch that is left out of a list for being empty would set nothing. -/
theorem flatMap_patchEntries (r : SheetRegistry) (patch : Option StyleObject) :
    ((patchEntries patch).filterMap r.style?).flatMap setEntries =
      ((patch.map StyleObject.typed).toList.map StyleObject.expand).flatMap setEntries := by
  cases patch with
  | none => rfl
  | some p =>
    by_cases he : p.isEmpty = true
    · have hp : p = .empty := OrderedMap.ext_entries (List.isEmpty_iff.1 he)
      subst hp
      rfl
    · simp [patchEntries, he, style?]

theorem flatten_styleList (r : SheetRegistry) (compiled : Option CompiledStyles)
    (keys : List String) (patch : Option StyleObject) {external : Option Json}
    (h : ∀ v ∈ external, ∀ leaf ∈ v.leaves, r.named? leaf = none) :
    r.flatten (styleList compiled keys patch external) =
      r.flatten (staticEntries compiled keys ++
        (fragments patch external).map fun fragment => .inlined fragment.expand) := by
  have hext : ((external.map externalEntries).getD []).filterMap r.style? =
      ((external.map Json.styleObjects).getD []).map StyleObject.expand := by
    cases external with
    | none => rfl
    | some v => exact styles_of_external r (h v rfl)
  simp only [flatten, styleList, fragments, List.filterMap_append, List.map_append,
    List.flatMap_append, List.append_assoc, styles_of_inlined, flatMap_patchEntries, hext]

/-! ## Priority -/

/-- One more fragment without `null` overrides all that stands before it. -/
theorem resolve_append_expanded (r : SheetRegistry) (list : List StyleEntry) {style : StyleObject}
    (h : style.HasNoNull) :
    (r.resolve (list ++ [.inlined style.expand])).SameAs
      ((r.resolve list).merge (r.resolve [.inlined style])) := by
  have hflat : ∀ k, (r.flatten (list ++ [.inlined style.expand])).get? k =
      (style.expand.get? k).or ((r.flatten list).get? k) := by
    intro k
    rw [get?_flatten_append, StyleObject.get?_flatten_of_hasNoNull r h.expand]
  intro k
  rw [OrderedMap.get?_merge, ← StyleObject.expand_sameAs_resolve r h k]
  rcases name_cases k with ⟨f, side, hs, rfl⟩ | ⟨f, part, hp, rfl⟩ | hk
  · have hshort : ∀ part ∈ BoxPart.shorthands, style.expand.get? (f.key part) = none :=
      fun part hp => StyleObject.get?_expand_shorthand style f hp
    rw [get?_resolve_side r _ f hs, get?_resolve_side r _ f hs, covering?, covering?, inherited?,
      inherited?, hflat, hflat, hflat, hshort _ side.axis_mem_shorthands, hshort .all (by decide),
      Option.none_or, Option.none_or, Option.or_assoc]
  · rw [get?_resolve_shorthand r _ f hp, get?_resolve_shorthand r _ f hp,
      StyleObject.get?_expand_shorthand style f hp]
    rfl
  · rw [get?_resolve_other r _ hk, get?_resolve_other r _ hk, hflat]

theorem resolve_expanded_sameAs_overridden (r : SheetRegistry) (list : List StyleEntry)
    (frags : List StyleObject) (h : ∀ fragment ∈ frags, StyleObject.HasNoNull fragment) :
    (r.resolve (list ++ frags.map fun fragment => .inlined fragment.expand)).SameAs
      (r.overridden (r.resolve list) frags) := by
  induction frags using List.reverseRecOn with
  | nil => rw [List.map_nil, List.append_nil, overridden_nil]; exact .refl _
  | append_singleton frags last ih =>
    have hlast : last.HasNoNull := h last (by simp)
    have hbefore := ih fun fragment hf => h fragment (by simp [hf])
    intro k
    have hstep := resolve_append_expanded r
      (list ++ frags.map fun fragment => .inlined fragment.expand) hlast k
    rw [List.map_append, List.map_cons, List.map_nil, ← List.append_assoc, hstep,
      overridden_append_singleton, OrderedMap.get?_merge, OrderedMap.get?_merge, hbefore k]

/-- The last fragment that covers a side decides it, whatever the property is that covers it. -/
theorem get?_overridden_side (r : SheetRegistry) (base : StyleObject) (f : BoxFamily)
    {side : BoxPart} (hs : side ∈ BoxPart.all.sides) (frags : List StyleObject)
    (h : ∀ fragment ∈ frags, StyleObject.HasNoNull fragment) :
    (r.overridden base frags).get? (f.key side) =
      (frags.reverse.findSome? (f.covering? · side)).or (base.get? (f.key side)) := by
  induction frags using List.reverseRecOn with
  | nil => rw [overridden_nil]; rfl
  | append_singleton frags last ih =>
    have hlast : last.HasNoNull := h last (by simp)
    rw [overridden_append_singleton, OrderedMap.get?_merge,
      ih fun fragment hf => h fragment (by simp [hf]),
      ← StyleObject.expand_sameAs_resolve r hlast, StyleObject.get?_expand_side last f hs,
      List.reverse_append, List.reverse_cons, List.reverse_nil, List.nil_append,
      List.singleton_append, List.findSome?_cons]
    cases f.covering? last side <;> rfl

/-- **Override priority.** A style list resolves to its registered styles, overridden key by key by
the patch and then by every object of the caller's style from left to right. A side of a box has
the value of the last of them that covers it, by its own name, its axis or the whole box. Values
that are neither objects nor lists count for nothing, unless they name a registered style. -/
theorem resolve_styleList_sameAs_overridden (r : SheetRegistry) (compiled : Option CompiledStyles)
    (keys : List String) (patch : Option StyleObject) (external : Option Json)
    (hpatch : ∀ p ∈ patch, StyleObject.HasNoNull p.typed)
    (hexternal : ∀ v ∈ external, ∀ style ∈ v.styleObjects, StyleObject.HasNoNull style)
    (hnames : ∀ v ∈ external, ∀ leaf ∈ v.leaves, r.named? leaf = none) :
    (r.resolve (styleList compiled keys patch external)).SameAs
      (r.overridden (r.resolve (staticEntries compiled keys)) (fragments patch external)) ∧
    ∀ (f : BoxFamily), ∀ side ∈ BoxPart.all.sides,
      (r.resolve (styleList compiled keys patch external)).get? (f.key side) =
        ((fragments patch external).reverse.findSome? (f.covering? · side)).or
          ((r.resolve (staticEntries compiled keys)).get? (f.key side)) := by
  have hfrags : ∀ fragment ∈ fragments patch external, StyleObject.HasNoNull fragment := by
    intro fragment hf
    rcases List.mem_append.1 hf with hf | hf
    · cases patch with
      | none => simp at hf
      | some p => rw [List.mem_singleton.1 hf]; exact hpatch p rfl
    · cases external with
      | none => simp at hf
      | some v => exact hexternal v rfl fragment hf
  have hsame : (r.resolve (styleList compiled keys patch external)).SameAs
      (r.overridden (r.resolve (staticEntries compiled keys)) (fragments patch external)) := by
    refine .trans ?_ (resolve_expanded_sameAs_overridden r _ _ hfrags)
    refine resolve_sameAs ?_
    rw [flatten_styleList r compiled keys patch hnames]
    exact .refl _
  refine ⟨hsame, fun f side hs => ?_⟩
  rw [hsame, get?_overridden_side r _ f hs _ hfrags]

/-- Shorthands of the patch and of the caller's style count over sides that are registered. -/
theorem resolve_styleList_shorthand_over_side :
    let r : SheetRegistry :=
      ⟨[.ofList [("paddingTop", .num (.int 10)), ("paddingLeft", .num (.int 10))]]⟩
    let patch : StyleObject := .ofList [("padding", .str "4px"), ("color", .str "red")]
    let external : Json :=
      .arr [.null, .arr [.bool false, .obj [("paddingHorizontal", .num (.int 5))]], .str "none"]
    let list := styleList (some (.ofList [("base", 1)])) ["base"] (some patch) (some external)
    StyleObject.HasNoNull patch.typed ∧
      (∀ style ∈ external.styleObjects, StyleObject.HasNoNull style) ∧
      (∀ leaf ∈ external.leaves, r.named? leaf = none) ∧
      (r.resolve list).get? "paddingTop" = some (.num (.int 4)) ∧
      (r.resolve list).get? "paddingLeft" = some (.num (.int 5)) := by
  intro r patch external list
  have hpatch : StyleObject.HasNoNull patch.typed := by decide +kernel
  have hexternal : ∀ style ∈ external.styleObjects, StyleObject.HasNoNull style := by
    decide +kernel
  have hnames : ∀ leaf ∈ external.leaves, r.named? leaf = none := by decide +kernel
  have hsides := (resolve_styleList_sameAs_overridden r (some (.ofList [("base", 1)])) ["base"]
    (some patch) (some external) (by rintro p ⟨⟩; exact hpatch) (by rintro v ⟨⟩; exact hexternal)
    (by rintro v ⟨⟩; exact hnames)).2 .padding
  refine ⟨hpatch, hexternal, hnames, ?_, ?_⟩
  · exact (hsides .top (by decide)).trans (by decide +kernel)
  · exact (hsides .left (by decide)).trans (by decide +kernel)

end SheetRegistry

end TemplateStyles
