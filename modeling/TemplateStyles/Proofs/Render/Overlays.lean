import Mathlib.Data.List.Basic
import TemplateStyles.Proofs.Render.Priority
/-!
# Overlays of a style list

Behind the registered styles of its component, a style list holds overlays: the patch, and then the
objects and the numbers of the caller's style, from left to right (`flatten_styleList_overlays`). A
flattened list has for each property the value that the last overlay gives it
(`get?_flatten_overlays`). A patch or an object gives a side of a box the value of its most specific
property for the side, and gives no shorthand; a style that is named by its number gives what it
holds, shorthands included.
-/
namespace TemplateStyles

open BoxFamily

/-! ## Sides and other properties -/

namespace BoxFamily

/-- A property that sets one side of a box. -/
def IsSide (k : String) : Prop := ∃ f : BoxFamily, ∃ side ∈ BoxPart.all.sides, k = f.key side

theorem not_isSide_shorthand (f : BoxFamily) {part : BoxPart} (hp : part ∈ BoxPart.shorthands) :
    ¬ IsSide (f.key part) := by
  rintro ⟨g, side, hs, hk⟩
  exact BoxPart.ne_of_mem_shorthands hs hp (key_inj hk).2.symm

theorem sameAs_of_sides {s t : StyleObject} (hother : ∀ k, ¬ IsSide k → s.get? k = t.get? k)
    (hside : ∀ (f : BoxFamily), ∀ side ∈ BoxPart.all.sides,
      s.get? (f.key side) = t.get? (f.key side)) : s.SameAs t := by
  intro k
  by_cases hk : IsSide k
  · obtain ⟨f, side, hs, rfl⟩ := hk
    exact hside f side hs
  · exact hother k hk

end BoxFamily

/-- Beside the sides, resolved styles differ only where the flattened ones do. -/
theorem SheetRegistry.get?_resolve_of_not_isSide (r : SheetRegistry) {a b : List StyleEntry}
    {k : String} (hk : ¬ IsSide k) (h : (∀ (f : BoxFamily) (part : BoxPart), k ≠ f.key part) →
      (r.flatten a).get? k = (r.flatten b).get? k) :
    (r.resolve a).get? k = (r.resolve b).get? k := by
  rcases name_cases k with ⟨f, side, hs, rfl⟩ | ⟨f, part, hp, rfl⟩ | hother
  · exact absurd ⟨f, side, hs, rfl⟩ hk
  · rw [get?_resolve_shorthand r _ f hp, get?_resolve_shorthand r _ f hp]
  · rw [get?_resolve_other r _ hother, get?_resolve_other r _ hother, h hother]

/-! ## Overlays -/

/-- What a style sets a property to: `null` leaves it unset. -/
def StyleObject.setting? (style : StyleObject) (k : String) : Option Json :=
  (style.get? k).filter (· ≠ .null)

theorem StyleObject.get?_typed (style : StyleObject) (k : String) :
    style.typed.get? k = (style.get? k).map Json.typed :=
  OrderedMap.get?_mapValues style Json.typed k

theorem BoxFamily.covering?_typed (f : BoxFamily) (style : StyleObject) (side : BoxPart) :
    f.covering? style.typed side = (f.covering? style side).map Json.typed := by
  simp only [covering?, inherited?, StyleObject.get?_typed, Option.map_or]

/-- A part of a style list behind the registered styles of the component. -/
inductive Overlay where
  | patch (style : StyleObject)
  /-- An object of the caller's style. -/
  | object (style : StyleObject)
  /-- A registered style that the caller names by its number. -/
  | named (id : Nat)

namespace Overlay

def entry : Overlay → StyleEntry
  | patch style => .inlined style.typed.expand
  | object style => .inlined style.expand
  | named id => .registered id

/-- The value that an overlay gives a property. -/
def gives? (r : SheetRegistry) (o : Overlay) (k : String) : Option Json :=
  (r.flatten [o.entry]).get? k

end Overlay

/-! ## The overlays of a list -/

/-- The overlay that a value outside of lists makes up. -/
def Json.overlay? : Json → Option Overlay
  | .obj members => some (.object (.ofList members))
  | .num (.int n) => if 0 ≤ n ∧ n ≤ maxStyleId then some (.named n.toNat) else none
  | _ => none

/-- The overlays of a caller's style. -/
def Json.overlays (v : Json) : List Overlay := v.leaves.filterMap Json.overlay?

/-- The patch, then the overlays of the caller's style. -/
def overlays (patch : Option StyleObject) (external : Option Json) : List Overlay :=
  (patch.map Overlay.patch).toList ++ (external.map Json.overlays).getD []

theorem Json.overlay?_object (style : StyleObject) :
    (Json.object style).overlay? = some (.object style) :=
  congrArg (some ∘ Overlay.object) (OrderedMap.ext_entries (OrderedMap.entries_ofList style.nodup))

theorem Json.overlays_object (style : StyleObject) :
    (Json.object style).overlays = [.object style] := by
  have hleaves : (Json.object style).leaves = [Json.object style] := by
    rw [Json.object, Json.leaves]
  rw [Json.overlays, hleaves, List.filterMap_cons_some (Json.overlay?_object style),
    List.filterMap_nil]

theorem Json.overlays_pair (v w : Json) : (Json.arr [v, w]).overlays = v.overlays ++ w.overlays := by
  simp only [Json.overlays, Json.leaves, Json.leavesAmong, List.append_nil, List.filterMap_append]

namespace SheetRegistry

theorem externalEntries_leaf {leaf : Json} (h : ∀ items, leaf ≠ .arr items) :
    externalEntries leaf = (leaf.overlay?.map Overlay.entry).toList := by
  cases leaf with
  | arr items => exact absurd rfl (h items)
  | num n =>
    cases n with
    | int n =>
      by_cases hn : 0 ≤ n ∧ n ≤ maxStyleId <;>
        simp [externalEntries, Json.overlay?, hn, Overlay.entry]
    | double negative m => simp [externalEntries, Json.overlay?]
  | obj members => simp [externalEntries, Json.overlay?, Overlay.entry]
  | str s => simp [externalEntries, Json.overlay?]
  | bool b => simp [externalEntries, Json.overlay?]
  | null => simp [externalEntries, Json.overlay?]

theorem externalEntries_eq_overlays (v : Json) :
    externalEntries v = v.overlays.map Overlay.entry := by
  rw [externalEntries_eq_leaves, Json.overlays, List.map_filterMap,
    List.filterMap_eq_flatMap_toList]
  exact List.flatMap_congr fun leaf h => externalEntries_leaf (leaves_isLeaf v leaf h)

theorem flatten_styleList_overlays (r : SheetRegistry) (compiled : Option CompiledStyles)
    (keys : List String) (patch : Option StyleObject) (external : Option Json) :
    r.flatten (styleList compiled keys patch external) =
      r.flatten (staticEntries compiled keys ++ (overlays patch external).map Overlay.entry) := by
  have hpatch : ((patchEntries patch).filterMap r.style?).flatMap setEntries =
      (((patch.map Overlay.patch).toList.map Overlay.entry).filterMap r.style?).flatMap
        setEntries := by
    rw [flatMap_patchEntries]
    cases patch <;> rfl
  have hexternal : (external.map externalEntries).getD [] =
      ((external.map Json.overlays).getD []).map Overlay.entry := by
    cases external with
    | none => rfl
    | some v => exact externalEntries_eq_overlays v
  simp only [flatten, styleList, overlays, hexternal, List.filterMap_append, List.map_append,
    List.flatMap_append, List.append_assoc, hpatch]

theorem resolve_styleList_overlays (r : SheetRegistry) (compiled : Option CompiledStyles)
    (keys : List String) (patch : Option StyleObject) (external : Option Json) :
    r.resolve (styleList compiled keys patch external) =
      r.resolve (staticEntries compiled keys ++ (overlays patch external).map Overlay.entry) := by
  rw [resolve, flatten_styleList_overlays, resolve]

/-- The last overlay that gives a property a value decides it, and without one the registered
styles do. -/
theorem get?_flatten_overlays (r : SheetRegistry) (list : List StyleEntry) (os : List Overlay)
    (k : String) : (r.flatten (list ++ os.map Overlay.entry)).get? k =
      (os.reverse.findSome? (·.gives? r k)).or ((r.flatten list).get? k) := by
  induction os using List.reverseRecOn with
  | nil => rw [List.map_nil, List.append_nil]; rfl
  | append_singleton os o ih =>
    rw [List.map_append, ← List.append_assoc, get?_flatten_append, ih, List.reverse_append,
      List.reverse_singleton, List.singleton_append, List.findSome?_cons]
    change (o.gives? r k).or _ = _
    cases o.gives? r k <;> rfl

/-- A side has the value of the last overlay that gives it one. -/
theorem get?_resolve_overlays_side (r : SheetRegistry) (list : List StyleEntry) (os : List Overlay)
    (f : BoxFamily) {side : BoxPart} (hs : side ∈ BoxPart.all.sides) :
    (r.resolve (list ++ os.map Overlay.entry)).get? (f.key side) =
      (os.reverse.findSome? (·.gives? r (f.key side))).or
        (((r.flatten list).get? (f.key side)).or
          (f.inherited? (r.flatten (list ++ os.map Overlay.entry)) side)) := by
  rw [get?_resolve_side r _ f hs, covering?, get?_flatten_overlays, Option.or_assoc]

end SheetRegistry

/-! ## What an overlay gives -/

namespace Overlay

variable (r : SheetRegistry)

theorem gives?_named {id : Nat} {style : StyleObject} (h : r.get? id = some style) (k : String) :
    (named id).gives? r k = style.setting? k :=
  r.get?_flatten_of_style? (e := .registered id) h k

theorem gives?_object_side (style : StyleObject) (f : BoxFamily) {side : BoxPart}
    (hs : side ∈ BoxPart.all.sides) :
    (object style).gives? r (f.key side) = (f.covering? style side).filter (· ≠ .null) := by
  rw [← StyleObject.get?_expand_side style f hs]
  exact r.get?_flatten_of_style? rfl _

theorem gives?_object_shorthand (style : StyleObject) (f : BoxFamily) {part : BoxPart}
    (hp : part ∈ BoxPart.shorthands) : (object style).gives? r (f.key part) = none := by
  refine (r.get?_flatten_of_style? (e := (object style).entry) rfl _).trans ?_
  rw [StyleObject.get?_expand_shorthand style f hp]
  rfl

theorem gives?_object_other (style : StyleObject) {k : String}
    (hk : ∀ (f : BoxFamily) (part : BoxPart), k ≠ f.key part) :
    (object style).gives? r k = style.setting? k := by
  rw [StyleObject.setting?, ← StyleObject.get?_expand_other style hk]
  exact r.get?_flatten_of_style? rfl _

theorem inherited?_flatten_entry (o : Overlay) (f : BoxFamily) (side : BoxPart) :
    f.inherited? (r.flatten [o.entry]) side =
      (o.gives? r (f.key side.axis)).or (o.gives? r (f.key .all)) := rfl

theorem inherited?_flatten_object (style : StyleObject) (f : BoxFamily) (side : BoxPart) :
    f.inherited? (r.flatten [(object style).entry]) side = none := by
  rw [inherited?_flatten_entry, gives?_object_shorthand r style f side.axis_mem_shorthands,
    gives?_object_shorthand r style f (by decide), Option.or_none]

/-- A patch gives what an object with its typed values gives. -/
theorem gives?_patch (style : StyleObject) (k : String) :
    (patch style).gives? r k = (object style.typed).gives? r k := rfl

end Overlay

end TemplateStyles
